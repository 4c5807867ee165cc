/- GID: Libofp/Sys/Registry
   digest: The registry of connections stays consistent whatever the order in which connections
     come, get their datapaths, replace each other and go. -/

import Libofp.Sys.Connections
import Mathlib.Data.List.Nodup
import Mathlib.Data.List.Forall2

set_option autoImplicit false

namespace Libofp.Sys.Registry

open Base.LowerBound Connections

section

variable {s : Engine} {p : Ptr} {c : Connection}

/-- `connList_` has the objects that are alive, in the order of their numbers. -/
structure Listing (s : Engine) : Prop where
  listed : ∀ p, p ∈ s.connList ↔ ∃ c, s.heap p = some c
  ordered : s.connList.Pairwise fun p q =>
    ∀ c d, s.heap p = some c → s.heap q = some d → c.connId < d.connId
  numbered : ∀ p c, s.heap p = some c → 0 < c.connId ∧ c.connId ≤ s.lastConnId

theorem mapM_heap {heap : Ptr → Option Connection} {list : List Ptr}
    (alive : ∀ p ∈ list, ∃ c, heap p = some c) :
    ∃ conns, list.mapM heap = some conns ∧
      List.Forall₂ (fun p c => heap p = some c) list conns := by
  induction list with
  | nil => exact ⟨[], rfl, .nil⟩
  | cons p list ih =>
    obtain ⟨⟨c, found⟩, alive⟩ := List.forall_mem_cons.mp alive
    obtain ⟨conns, mapped, along⟩ := ih alive
    refine ⟨c :: conns, ?_, .cons found along⟩
    rw [List.mapM_cons, found, mapped]
    rfl

namespace Listing

section

variable (listing : Listing s)

include listing

theorem nodup : s.connList.Nodup := by
  refine listing.ordered.imp_of_mem ?_
  intro p q first _ smaller same
  obtain ⟨c, found⟩ := (listing.listed p).mp first
  exact absurd (smaller c c found (same ▸ found)) (Nat.lt_irrefl _)

theorem connId_inj {q : Ptr} {d : Connection} (alive : s.heap p = some c)
    (alive' : s.heap q = some d) (same : c.connId = d.connId) : p = q := by
  obtain ⟨i, inside, rfl⟩ := List.getElem_of_mem ((listing.listed p).mpr ⟨c, alive⟩)
  obtain ⟨j, inside', rfl⟩ := List.getElem_of_mem ((listing.listed q).mpr ⟨d, alive'⟩)
  have ordered := List.pairwise_iff_getElem.mp listing.ordered
  rcases Nat.lt_trichotomy i j with before | rfl | after
  · exact absurd (ordered i j inside inside' before c d alive alive') (by omega)
  · rfl
  · exact absurd (ordered j i inside' inside after d c alive' alive) (by omega)

theorem conns : ∃ conns, s.connList.mapM s.heap = some conns ∧
      List.Forall₂ (fun p c => s.heap p = some c) s.connList conns ∧
      (conns.map Connection.connId).Pairwise (· < ·) := by
  obtain ⟨conns, mapped, along⟩ := mapM_heap fun p member => (listing.listed p).mp member
  refine ⟨conns, mapped, along, ?_⟩
  rw [List.pairwise_map]
  have ordered := listing.ordered
  clear mapped
  generalize s.connList = list at along ordered
  induction along with
  | nil => exact .nil
  | @cons p c list conns found along ih =>
    obtain ⟨first, ordered⟩ := List.pairwise_cons.mp ordered
    refine List.pairwise_cons.mpr ⟨?_, ih ordered⟩
    intro d later
    obtain ⟨i, bound, rfl⟩ := List.getElem_of_mem later
    have inside : i < list.length := by
      rwa [along.length_eq]
    have here := (List.forall₂_iff_get.mp along).2 i inside bound
    exact first _ (List.get_mem ..) c _ found here

theorem findConnIter_eq {connId : Nat} (nonzero : connId ≠ 0) :
    (∃ i p c, findConnIter s connId = some (some i) ∧ s.connList[i]? = some p ∧
        s.heap p = some c ∧ c.connId = connId) ∨
      findConnIter s connId = some none ∧ ∀ p c, s.heap p = some c → c.connId ≠ connId := by
  obtain ⟨conns, mapped, along, increasing⟩ := listing.conns
  rw [List.pairwise_map] at increasing
  have pointer (i : Nat) (c : Connection) (found : conns[i]? = some c) :
      ∃ p, s.connList[i]? = some p ∧ s.heap p = some c := by
    obtain ⟨bound, rfl⟩ := List.getElem?_eq_some_iff.mp found
    have inside : i < s.connList.length := by
      rwa [along.length_eq]
    exact ⟨_, List.getElem?_eq_getElem inside, (List.forall₂_iff_get.mp along).2 i inside bound⟩
  have object (p : Ptr) (c : Connection) (alive : s.heap p = some c) :
      ∃ i : Nat, conns[i]? = some c := by
    obtain ⟨i, inside, rfl⟩ := List.getElem_of_mem ((listing.listed p).mpr ⟨c, alive⟩)
    have bound : i < conns.length := by
      rwa [← along.length_eq]
    have here := (List.forall₂_iff_get.mp along).2 i inside bound
    refine ⟨i, ?_⟩
    rw [List.getElem?_eq_getElem bound]
    exact here.symm.trans alive
  have split : ∀ i c, conns[i]? = some c → (decide (c.connId < connId) = true ↔
      i < lowerBound (fun c => decide (c.connId < connId)) conns) :=
    lowerBound_spec (increasing.imp fun smaller less => by
      simp only [decide_eq_true_eq] at less ⊢
      omega)
  have guarded : (guard (connId ≠ 0) : Option Unit) = some () := if_pos nonzero
  rw [findConnIter, guarded, mapped]
  simp only [Option.bind_eq_bind, Option.bind_some]
  generalize lowerBound (fun c => decide (c.connId < connId)) conns = stop at split ⊢
  cases met : conns[stop]? with
  | none =>
    refine .inr ⟨rfl, fun p c alive same => ?_⟩
    obtain ⟨i, found⟩ := object p c alive
    have inside := (List.getElem?_eq_some_iff.mp found).1
    have outside := List.getElem?_eq_none_iff.mp met
    have less := (split i c found).mpr (by omega)
    simp only [decide_eq_true_eq] at less
    omega
  | some conn =>
    have notLess : ¬ conn.connId < connId := by
      have side := split stop conn met
      simpa using side
    by_cases same : conn.connId = connId
    · obtain ⟨p, listed, alive⟩ := pointer stop conn met
      exact .inl ⟨stop, p, conn, by simp [same], listed, alive, same⟩
    · refine .inr ⟨by simp [same], fun p c alive equal => ?_⟩
      obtain ⟨i, found⟩ := object p c alive
      have late : stop ≤ i := by
        have side := split i c found
        simp only [decide_eq_true_eq, equal, Nat.lt_irrefl, false_iff] at side
        omega
      rcases Nat.eq_or_lt_of_le late with rfl | later
      · rw [met] at found
        obtain rfl := Option.some.inj found
        exact same equal
      · obtain ⟨first, rfl⟩ := List.getElem?_eq_some_iff.mp met
        obtain ⟨second, rfl⟩ := List.getElem?_eq_some_iff.mp found
        have := List.pairwise_iff_getElem.mp increasing stop i first second later
        omega

theorem releaseConnection_eq (alive : s.heap p = some c) :
    releaseConnection s p = some { s with connList := s.connList.erase p } := by
  have nonzero : c.connId ≠ 0 := Nat.ne_of_gt (listing.numbered p c alive).1
  rcases listing.findConnIter_eq nonzero with ⟨i, q, d, found, here, aliveQ, same⟩ | ⟨-, none⟩
  · obtain rfl := listing.connId_inj aliveQ alive same
    obtain ⟨inside, rfl⟩ := List.getElem?_eq_some_iff.mp here
    simp [releaseConnection, alive, found, guard, listing.nodup.erase_getElem]
  · exact absurd rfl (none p c alive)

theorem change {s' : Engine} (fewer : s'.connList.Sublist s.connList)
    (listed : ∀ q, q ∈ s'.connList ↔ ∃ c, s'.heap q = some c)
    (numbers : ∀ q c', s'.heap q = some c' → ∃ c, s.heap q = some c ∧ c.connId = c'.connId)
    (last : s'.lastConnId = s.lastConnId) : Listing s' where
  listed := listed
  ordered := by
    refine (listing.ordered.sublist fewer).imp ?_
    intro q r smaller c' d' aliveQ aliveR
    obtain ⟨c, alive, same⟩ := numbers q c' aliveQ
    obtain ⟨d, alive', same'⟩ := numbers r d' aliveR
    rw [← same, ← same']
    exact smaller c d alive alive'
  numbered := by
    intro q c' aliveQ
    obtain ⟨c, alive, same⟩ := numbers q c' aliveQ
    rw [← same, last]
    exact listing.numbered q c alive

theorem store (alive : s.heap p = some c) {c' : Connection}
    (same : c'.connId = c.connId) : Listing (s.store p c') := by
  refine listing.change (List.Sublist.refl _) ?_ ?_ rfl
  · intro q
    rw [show (s.store p c').connList = s.connList from rfl, listing.listed]
    by_cases here : q = p
    · subst here
      simp [Engine.store, alive]
    · simp [Engine.store, here]
  · intro q d found
    by_cases here : q = p
    · subst here
      obtain rfl : c' = d := by simpa [Engine.store] using found
      exact ⟨c, alive, same.symm⟩
    · exact ⟨d, by simpa [Engine.store, here] using found, rfl⟩

end

end Listing

end

section

variable {s : Engine} {p q : Ptr} {c : Connection}

def remove (s : Engine) (p : Ptr) : Engine :=
  { s with heap := Function.update s.heap p none, connList := s.connList.erase p }

theorem heap_remove_of_ne (other : q ≠ p) : (remove s p).heap q = s.heap q :=
  Function.update_of_ne other ..

private theorem heap_remove_self : (remove s p).heap p = none := Function.update_self ..

theorem heap_remove_eq_some : (remove s p).heap q = some c ↔ q ≠ p ∧ s.heap q = some c := by
  by_cases same : q = p
  · subst same
    simp [heap_remove_self]
  · simp [heap_remove_of_ne same, same]

theorem Listing.remove (listing : Listing s) (p : Ptr) : Listing (remove s p) := by
  refine listing.change List.erase_sublist ?_ ?_ rfl
  · intro q
    simp only [heap_remove_eq_some]
    rw [show (Registry.remove s p).connList = s.connList.erase p from rfl,
      listing.nodup.mem_erase_iff, listing.listed]
    simp
  · intro q d found
    exact ⟨d, (heap_remove_eq_some.mp found).2, rfl⟩

end

section

variable {s : Engine} {p q m : Ptr} {c a : Connection} {d : DatapathID}

/-- The list is in order, datapaths lead to main connections, and main and auxiliary connections
know each other. -/
structure Consistent (s : Engine) : Prop extends Listing s where
  mapped : ∀ d p, s.dpidMap d = some p →
    d ≠ 0 ∧ ∃ c, s.heap p = some c ∧ c.datapathId = d ∧ c.auxiliaryId = 0
  auxiliary : ∀ p c, s.heap p = some c → c.mainConn ≠ p →
    c.datapathId ≠ 0 ∧ c.auxiliaryId ≠ 0 ∧ ∃ m, s.heap c.mainConn = some m ∧ p ∈ m.auxList
  owned : ∀ p c, s.heap p = some c → ∀ q ∈ c.auxList,
    c.datapathId ≠ 0 ∧ c.auxiliaryId = 0 ∧ q ≠ p ∧ ∃ a, s.heap q = some a ∧ a.mainConn = p
  distinct : ∀ p c, s.heap p = some c → c.auxList.Nodup

theorem heap_store (s : Engine) (p q : Ptr) (c : Connection) :
    (s.store p c).heap q = if q = p then some c else s.heap q := Function.update_apply ..

namespace Consistent

section

variable (consistent : Consistent s)

include consistent

theorem remove (alive : s.heap p = some c) (own : c.mainConn = p)
    (bare : c.auxList = []) (unmapped : ∀ d, s.dpidMap d ≠ some p) : Consistent (remove s p) where
  toListing := consistent.toListing.remove p
  mapped := by
    intro d q (maps : s.dpidMap d = some q)
    have := consistent.mapped d q maps
    simp only [heap_remove_eq_some]
    grind
  auxiliary := by
    intro q e found foreign
    have := consistent.auxiliary
    simp only [heap_remove_eq_some] at found ⊢
    grind
  owned := by
    intro q e found r member
    have := consistent.owned
    simp only [heap_remove_eq_some] at found ⊢
    grind
  distinct := by
    intro q e found
    exact consistent.distinct q e (heap_remove_eq_some.mp found).2

theorem detach (alive : s.heap q = some a) (main : a.mainConn = m)
    (apart : m ≠ q) (aliveMain : s.heap m = some c) :
    Consistent ((s.store q { a with mainConn := q }).store m
      { c with auxList := c.auxList.erase q }) where
  toListing := by
    have first : Listing (s.store q { a with mainConn := q }) :=
      consistent.toListing.store alive rfl
    exact first.store (c := c) (by rwa [heap_store, if_neg apart]) rfl
  mapped := by
    intro d p maps
    obtain ⟨nonzero, e, found, named⟩ := consistent.mapped d p maps
    simp only [heap_store]
    grind
  auxiliary := by
    intro p e found foreign
    simp only [heap_store] at found ⊢
    have := consistent.auxiliary
    grind
  owned := by
    intro p e found r member
    simp only [heap_store] at found ⊢
    have := consistent.owned
    have nodup := consistent.distinct m c aliveMain
    grind
  distinct := by
    intro p e found
    have nodup := consistent.distinct
    simp only [heap_store] at found
    grind

theorem attach (alive : s.heap q = some a) (own : a.mainConn = q)
    (named : a.datapathId ≠ 0) (auxId : a.auxiliaryId ≠ 0) (aliveMain : s.heap m = some c)
    (namedMain : c.datapathId ≠ 0) (main : c.auxiliaryId = 0) :
    Consistent ((s.store q { a with mainConn := m }).store m
      { c with auxList := c.auxList ++ [q] }) where
  toListing := by
    have apart : m ≠ q := by grind
    have first : Listing (s.store q { a with mainConn := m }) :=
      consistent.toListing.store alive rfl
    exact first.store (c := c) (by rwa [heap_store, if_neg apart]) rfl
  mapped := by
    intro d p maps
    obtain ⟨nonzero, e, found, named⟩ := consistent.mapped d p maps
    simp only [heap_store]
    grind
  auxiliary := by
    intro p e found foreign
    have := consistent.auxiliary
    simp only [heap_store] at found ⊢
    grind
  owned := by
    intro p e found r member
    have := consistent.owned
    simp only [heap_store] at found ⊢
    grind
  distinct := by
    intro p e found
    have fresh : q ∉ c.auxList := by
      intro member
      have := consistent.owned m c aliveMain q member
      grind
    have nodup := consistent.distinct
    simp only [heap_store] at found
    by_cases here : p = m
    · obtain rfl : { c with auxList := c.auxList ++ [q] } = e := by simpa [here] using found
      exact List.nodup_append.mpr ⟨nodup m c aliveMain, List.nodup_singleton q, by grind⟩
    · grind

section

variable (alive : s.heap p = some c)

include alive

theorem alone (unnamed : c.datapathId = 0) :
    c.mainConn = p ∧ c.auxList = [] ∧ ∀ d, s.dpidMap d ≠ some p := by
  refine ⟨?_, ?_, ?_⟩
  · by_contra foreign
    exact (consistent.auxiliary p c alive foreign).1 unnamed
  · apply List.eq_nil_iff_forall_not_mem.mpr
    intro q member
    exact (consistent.owned p c alive q member).1 unnamed
  · intro d maps
    obtain ⟨nonzero, e, found, named, -⟩ := consistent.mapped d p maps
    rw [alive] at found
    obtain rfl := Option.some.inj found
    exact nonzero (named.symm.trans unnamed)

theorem restore {c' : Connection} (number : c'.connId = c.connId) (main : c'.mainConn = c.mainConn)
    (auxList : c'.auxList = c.auxList)
    (named : c.datapathId ≠ 0 → c'.datapathId = c.datapathId ∧ c'.auxiliaryId = c.auxiliaryId) :
    Consistent (s.store p c') where
  toListing := consistent.toListing.store alive number
  mapped := by
    intro e q maps
    obtain ⟨nonzero, b, found, named⟩ := consistent.mapped e q maps
    simp only [heap_store]
    grind
  auxiliary := by
    intro q e found foreign
    have := consistent.auxiliary
    simp only [heap_store] at found ⊢
    grind
  owned := by
    intro q e found r member
    have := consistent.owned
    simp only [heap_store] at found ⊢
    grind
  distinct := by
    intro q e found
    have nodup := consistent.distinct
    simp only [heap_store] at found
    grind

theorem name (unnamed : c.datapathId = 0) (d : DatapathID) (auxId : UInt8) :
    Consistent (s.store p { c with datapathId := d, auxiliaryId := auxId }) :=
  consistent.restore alive rfl rfl rfl fun named => absurd unnamed named

theorem setFlags (flags : BitVec 16) : Consistent (s.store p { c with flags := flags }) :=
  consistent.restore alive rfl rfl rfl fun _ => ⟨rfl, rfl⟩

end

theorem remap {value : Option Ptr} (main : ∀ p, value = some p →
      d ≠ 0 ∧ ∃ c, s.heap p = some c ∧ c.datapathId = d ∧ c.auxiliaryId = 0) :
    Consistent { s with dpidMap := Function.update s.dpidMap d value } where
  toListing := consistent.toListing.change (List.Sublist.refl _) consistent.listed
    (fun _ c found => ⟨c, found, rfl⟩) rfl
  mapped := by
    intro e q maps
    simp only [Function.update_apply] at maps
    split at maps
    · next same =>
      subst same
      exact main q maps
    · exact consistent.mapped e q maps
  auxiliary := consistent.auxiliary
  owned := consistent.owned
  distinct := consistent.distinct

theorem add (dead : s.heap p = none) (flags : BitVec 16) :
    Consistent (Engine.store
      { s with connList := s.connList ++ [p], lastConnId := s.lastConnId + 1 } p
      ⟨s.lastConnId + 1, 0, 0, p, [], flags⟩) where
  listed := by
    intro q
    have := consistent.listed q
    simp only [heap_store]
    grind [Engine.store]
  ordered := by
    have := consistent.numbered
    have listed := consistent.listed
    refine List.pairwise_append.mpr ⟨?_, List.pairwise_singleton .., ?_⟩
    · refine consistent.ordered.imp_of_mem ?_
      intro q r first second smaller e f
      simp only [heap_store]
      grind
    · intro q member r last e f
      simp only [heap_store]
      grind
  numbered := by
    intro q e found
    have := consistent.numbered q e
    simp only [heap_store] at found
    grind [Engine.store]
  mapped := by
    intro e q maps
    obtain ⟨nonzero, b, found, named⟩ := consistent.mapped e q maps
    simp only [heap_store]
    grind
  auxiliary := by
    intro q e found foreign
    have := consistent.auxiliary
    simp only [heap_store] at found ⊢
    grind
  owned := by
    intro q e found r member
    have := consistent.owned
    simp only [heap_store] at found ⊢
    grind
  distinct := by
    intro q e found
    have nodup := consistent.distinct
    simp only [heap_store] at found
    grind

end

end Consistent

private theorem consistent_empty : Consistent .empty where
  listed := by simp [Engine.empty]
  ordered := .nil
  numbered := by simp [Engine.empty]
  mapped := by simp [Engine.empty]
  auxiliary := by simp [Engine.empty]
  owned := by simp [Engine.empty]
  distinct := by simp [Engine.empty]

end

section

variable {s : Engine} {p q : Ptr} {c d : Connection}

private theorem store_store : (s.store p c).store p d = s.store p d := by
  simp [Engine.store]

theorem store_comm (apart : q ≠ p) : (s.store p c).store q d = (s.store q d).store p c := by
  simp only [Engine.store]
  rw [Function.update_comm apart]

private theorem store_self (alive : s.heap p = some c) : s.store p c = s := by
  rw [Engine.store, ← alive, Function.update_eq_self]

theorem remove_store : remove (s.store p c) p = remove s p := by
  simp [Engine.store, remove]

private theorem remove_store_comm (apart : q ≠ p) :
    remove (s.store p c) q = (remove s q).store p c := by
  simp only [Engine.store, remove]
  rw [Function.update_comm apart.symm]

end

section

variable {s : Engine} {p q : Ptr} {c a : Connection}

theorem release_free (listing : Listing s) (alive : s.heap p = some c) :
    ((releaseConnection s p).map fun s => s.free p) = some (remove s p) := by
  rw [listing.releaseConnection_eq alive]
  rfl

private theorem destroyLoop_leaf (listing : Listing s) (alive : s.heap q = some a)
    (own : a.mainConn = q) (bare : a.auxList = []) (auxId : a.auxiliaryId ≠ 0) (depth : Nat) :
    destroyLoop (depth + 1) s q = some (remove s q) := by
  have released : releaseDatapath s q = some s := by
    simp [releaseDatapath, alive, auxId]
  have left : leaveDatapath (destroyLoop depth) s q a = some s := by
    rw [leaveDatapath, released, Option.bind_some, if_pos own, bare]
    rfl
  rw [destroyLoop, alive, Option.bind_some, left, ite_self, Option.bind_some]
  exact release_free listing alive

theorem Consistent.leaf (consistent : Consistent s) (alive : s.heap q = some a)
    (foreign : a.mainConn ≠ q) :
    a.auxiliaryId ≠ 0 ∧ a.auxList = [] ∧ ∀ d, s.dpidMap d ≠ some q := by
  obtain ⟨-, auxId, -⟩ := consistent.auxiliary q a alive foreign
  refine ⟨auxId, ?_, ?_⟩
  · apply List.eq_nil_iff_forall_not_mem.mpr
    intro r member
    exact auxId (consistent.owned q a alive r member).2.1
  · intro d maps
    obtain ⟨-, e, found, -, main⟩ := consistent.mapped d q maps
    rw [alive] at found
    obtain rfl := Option.some.inj found
    exact auxId main

/-- The list of the dying connection `p` is not updated while its auxiliary connections leave it.
The state is that of a consistent one, in which the list has only those that are left. -/
private theorem dropAux_spec {rest : List Ptr} (consistent : Consistent s)
    (alive : s.heap p = some { c with auxList := q :: rest }) (depth : Nat) :
    ∃ s', dropAux (destroyLoop (depth + 1)) (s.store p c) q = some (s'.store p c) ∧ Consistent s' ∧
      s'.heap p = some { c with auxList := rest } ∧ s'.dpidMap = s.dpidMap ∧
      s'.lastConnId = s.lastConnId := by
  obtain ⟨-, -, apart, a, aliveAux, main⟩ := consistent.owned p _ alive q List.mem_cons_self
  have foreign : a.mainConn ≠ q := by
    rw [main]
    exact apart.symm
  obtain ⟨auxId, bare, unmapped⟩ := consistent.leaf aliveAux foreign
  let s₁ := (s.store q { a with mainConn := q }).store p { c with auxList := rest }
  have parted : Consistent s₁ := by
    have parted := consistent.detach aliveAux main apart.symm alive
    simpa only [List.erase_cons_head] using parted
  have alive₁ : s₁.heap p = some { c with auxList := rest } := by
    rw [heap_store, if_pos rfl]
  have aux₁ : s₁.heap q = some { a with mainConn := q } := by
    rw [heap_store, if_neg apart, heap_store, if_pos rfl]
  have stored : (s.store p c).store q { a with mainConn := q } = s₁.store p c := by
    rw [store_store, store_comm apart]
  have follow : (s.store p c).heap q = some a := by
    rw [heap_store, if_neg apart, aliveAux]
  rw [dropAux, follow, Option.bind_some]
  rw [stored]
  split
  · have listing : Listing (s₁.store p c) := parted.toListing.store alive₁ rfl
    have here : (s₁.store p c).heap q = some { a with mainConn := q } := by
      rw [heap_store, if_neg apart, aux₁]
    refine ⟨remove s₁ q, ?_, parted.remove aux₁ rfl bare unmapped, ?_, rfl, rfl⟩
    · rw [destroyLoop_leaf listing here rfl bare auxId, remove_store_comm apart]
    · rw [heap_remove_of_ne apart.symm, alive₁]
  · exact ⟨s₁, rfl, parted, alive₁, rfl, rfl⟩

private theorem foldlM_dropAux (depth : Nat) (rest : List Ptr) (consistent : Consistent s)
    (alive : s.heap p = some { c with auxList := rest }) :
    ∃ s', rest.foldlM (dropAux (destroyLoop (depth + 1))) (s.store p c) = some (s'.store p c) ∧
      Consistent s' ∧ s'.heap p = some { c with auxList := [] } ∧ s'.dpidMap = s.dpidMap ∧
      s'.lastConnId = s.lastConnId := by
  induction rest generalizing s with
  | nil => exact ⟨s, rfl, consistent, alive, rfl, rfl⟩
  | cons q rest ih =>
    obtain ⟨s₁, dropped, consistent₁, alive₁, map₁, last₁⟩ := dropAux_spec consistent alive depth
    obtain ⟨s', ran, consistent', alive', map', last'⟩ := ih consistent₁ alive₁
    refine ⟨s', ?_, consistent', alive', map'.trans map₁, last'.trans last₁⟩
    rwa [List.foldlM_cons, dropped]

private theorem releaseDatapath_spec (consistent : Consistent s) (alive : s.heap p = some c) :
    ∃ dpidMap, releaseDatapath s p = some { s with dpidMap := dpidMap } ∧
      Consistent { s with dpidMap := dpidMap } ∧ (∀ d, dpidMap d ≠ some p) ∧
      ∀ d q, q ≠ p → s.dpidMap d = some q → dpidMap d = some q := by
  have named (d : DatapathID) (maps : s.dpidMap d = some p) :
      c.datapathId = d ∧ c.auxiliaryId = 0 := by
    obtain ⟨-, e, found, same⟩ := consistent.mapped d p maps
    rw [alive] at found
    obtain rfl := Option.some.inj found
    exact same
  by_cases maps : s.dpidMap c.datapathId = some p
  · refine ⟨Function.update s.dpidMap c.datapathId none, ?_, ?_, ?_, ?_⟩
    · simp [releaseDatapath, alive, (named _ maps).2, maps]
    · exact consistent.remap (by simp)
    · intro d
      rw [Function.update_apply]
      split
      · simp
      · next other =>
        intro maps'
        exact other (named d maps').1.symm
    · intro d q other found
      rw [Function.update_apply, if_neg]
      · exact found
      · rintro rfl
        rw [maps] at found
        exact other (Option.some.inj found).symm
  · refine ⟨s.dpidMap, ?_, consistent, ?_, fun _ _ _ found => found⟩
    · rw [releaseDatapath, alive]
      cases found : s.dpidMap c.datapathId with
      | none => simp [found]
      | some q =>
        have other : q ≠ p := by
          rintro rfl
          exact maps found
        simp [found, other]
    · intro d maps'
      obtain ⟨rfl, -⟩ := named d maps'
      exact maps maps'

theorem destroy_spec (consistent : Consistent s) (alive : s.heap p = some c) :
    ∃ s', destroy s p = some s' ∧ Consistent s' ∧ s'.lastConnId = s.lastConnId ∧
      ∀ d q, q ≠ p → s.dpidMap d = some q → s'.dpidMap d = some q := by
  obtain ⟨depth, deep⟩ : ∃ depth, s.connList.length = depth + 1 := by
    apply Nat.exists_eq_succ_of_ne_zero
    have member := (consistent.listed p).mpr ⟨c, alive⟩
    exact Nat.ne_of_gt (List.length_pos_of_mem member)
  rw [destroy, deep, destroyLoop, alive, Option.bind_some]
  by_cases unnamed : c.datapathId = 0
  · obtain ⟨own, bare, unmapped⟩ := consistent.alone alive unnamed
    refine ⟨remove s p, ?_, consistent.remove alive own bare unmapped, rfl,
      fun _ _ _ found => found⟩
    rw [if_neg (not_not.mpr unnamed)]
    exact release_free consistent.toListing alive
  · obtain ⟨dpidMap, released, consistent₁, unmapped, kept⟩ := releaseDatapath_spec consistent alive
    rw [if_pos unnamed, leaveDatapath, released, Option.bind_some]
    by_cases own : c.mainConn = p
    · obtain ⟨s', ran, consistent', alive', map', last'⟩ :=
        foldlM_dropAux depth c.auxList consistent₁ (p := p) (c := c) alive
      rw [store_self (s := { s with dpidMap := dpidMap }) alive] at ran
      have listing : Listing (s'.store p c) := consistent'.toListing.store alive' rfl
      refine ⟨remove s' p, ?_, consistent'.remove alive' own rfl ?_, last', ?_⟩
      · rw [if_pos own, ran, Option.bind_some,
          release_free listing (by rw [heap_store, if_pos rfl]), remove_store]
      · rwa [map']
      · rwa [show (remove s' p).dpidMap = dpidMap from map']
    · obtain ⟨auxId, bare, -⟩ := consistent.leaf alive own
      obtain ⟨-, -, m, aliveMain, -⟩ := consistent.auxiliary p c alive own
      have apart : p ≠ c.mainConn := fun same => own same.symm
      have parted := consistent₁.detach (q := p) (c := m) alive rfl own aliveMain
      have gone : remove ((Engine.store { s with dpidMap := dpidMap } p
          { c with mainConn := p }).store c.mainConn { m with auxList := m.auxList.erase p }) p =
          remove (Engine.store { s with dpidMap := dpidMap } c.mainConn
            { m with auxList := m.auxList.erase p }) p := by
        rw [store_comm own, remove_store]
      have listing : Listing (Engine.store { s with dpidMap := dpidMap } c.mainConn
          { m with auxList := m.auxList.erase p }) :=
        consistent₁.toListing.store aliveMain rfl
      refine ⟨_, ?_, parted.remove (c := { c with mainConn := p }) ?_ rfl bare unmapped, rfl, kept⟩
      · rw [if_neg own, gone]
        simp only [aliveMain, Option.map_some, Option.bind_some]
        exact release_free listing (c := c) (by rw [heap_store, if_neg apart]; exact alive)
      · rw [heap_store, if_neg apart, heap_store, if_pos rfl]

end

section

variable {s : Engine} {p : Ptr} {c : Connection}

section

variable (consistent : Consistent s)

include consistent

private theorem construct_spec (dead : s.heap p = none) (flags : BitVec 16)
    (room : s.lastConnId + 1 < 2 ^ 64) :
    ∃ s', construct s p flags = some s' ∧ Consistent s' ∧ s'.lastConnId = s.lastConnId + 1 := by
  have next : (s.lastConnId + 1) % 2 ^ 64 = s.lastConnId + 1 := Nat.mod_eq_of_lt room
  refine ⟨_, ?_, consistent.add dead flags, rfl⟩
  have nonzero : ¬ s.lastConnId + 1 = 0 := by omega
  simp only [construct, registerConnection, assignConnectionId, next, if_neg nonzero]
  rfl

private theorem registerDatapath_spec (alive : s.heap p = some c)
    (named : c.datapathId ≠ 0) (own : c.mainConn = p) (unmapped : ∀ d, s.dpidMap d ≠ some p) :
    ∃ s' result, registerDatapath s p = some (s', result) ∧ Consistent s' ∧
      s'.lastConnId = s.lastConnId := by
  by_cases main : c.auxiliaryId = 0
  · have mapped : Consistent
        { s with dpidMap := Function.update s.dpidMap c.datapathId (some p) } := by
      refine consistent.remap ?_
      rintro q ⟨⟩
      exact ⟨named, c, alive, rfl, main⟩
    refine ⟨_, true, ?_, mapped, rfl⟩
    cases found : s.dpidMap c.datapathId with
    | none => simp [registerDatapath, alive, main, found]
    | some old =>
      have other : old ≠ p := by
        rintro rfl
        exact unmapped _ found
      obtain ⟨-, e, aliveOld, -⟩ := consistent.mapped _ old found
      simp [registerDatapath, alive, main, found, other, aliveOld]
  · cases found : s.dpidMap c.datapathId with
    | none => exact ⟨s, false, by simp [registerDatapath, alive, main, found], consistent, rfl⟩
    | some parent =>
      obtain ⟨-, m, aliveMain, same, mainId⟩ := consistent.mapped _ parent found
      have apart : parent ≠ p := by
        rintro rfl
        exact unmapped _ found
      by_cases refused : m.flags &&& kPermitsAuxiliary = 0#16
      · refine ⟨s, false, ?_, consistent, rfl⟩
        simp [registerDatapath, alive, main, found, aliveMain, refused]
      · have attached := consistent.attach alive own named main aliveMain (same ▸ named) mainId
        refine ⟨_, true, ?_, attached, rfl⟩
        have list : ∀ q ∈ m.auxList,
            ∃ e, (s.store p { c with mainConn := parent }).heap q = some e := by
          intro q member
          obtain ⟨-, -, -, b, aliveAux, -⟩ := consistent.owned parent m aliveMain q member
          rw [heap_store]
          split
          · exact ⟨_, rfl⟩
          · exact ⟨b, aliveAux⟩
        obtain ⟨conns, followed, -⟩ := mapM_heap list
        simp [registerDatapath, setMainConnection, alive, main, found, aliveMain, refused, own,
          apart, same, guard, followed]

private theorem postDatapath_spec (alive : s.heap p = some c)
    (unnamed : c.datapathId = 0) {d : DatapathID} (nonempty : d ≠ 0) (auxId : UInt8) :
    ∃ s' result, postDatapath s p d auxId = some (s', result) ∧ Consistent s' ∧
      s'.lastConnId = s.lastConnId := by
  obtain ⟨own, -, unmapped⟩ := consistent.alone alive unnamed
  obtain ⟨s', result, registered, consistent', last⟩ :=
    registerDatapath_spec (consistent.name alive unnamed d auxId) (p := p)
      (c := { c with datapathId := d, auxiliaryId := auxId }) (by rw [heap_store, if_pos rfl])
      nonempty own unmapped
  refine ⟨s', result, ?_, consistent', last⟩
  have other : ¬ d = 0#64 := nonempty
  simp [postDatapath, other, alive, registered]

theorem step_spec {e : Event} (ok : allowed s e = true)
    (room : s.lastConnId + (if e.isConstruct then 1 else 0) < 2 ^ 64) :
    ∃ s', step s e = some s' ∧ Consistent s' ∧
      s'.lastConnId = s.lastConnId + if e.isConstruct then 1 else 0 := by
  cases e with
  | construct p flags =>
    exact construct_spec consistent (by simpa [allowed] using ok) flags room
  | setFlags p flags =>
    obtain ⟨c, alive⟩ := Option.isSome_iff_exists.mp ok
    exact ⟨_, by rw [step, alive]; rfl, consistent.setFlags alive flags, rfl⟩
  | postDatapath p d auxId =>
    simp only [allowed, Bool.and_eq_true, decide_eq_true_eq, Option.any_eq_true] at ok
    obtain ⟨nonempty, c, alive, unnamed⟩ := ok
    obtain ⟨s', result, posted, consistent', last⟩ :=
      postDatapath_spec consistent alive unnamed nonempty auxId
    exact ⟨s', by rw [step, posted]; rfl, consistent', last⟩
  | destroy p =>
    obtain ⟨c, alive⟩ := Option.isSome_iff_exists.mp ok
    obtain ⟨s', destroyed, consistent', last, -⟩ := destroy_spec consistent alive
    exact ⟨s', destroyed, consistent', last⟩

theorem foldlM_spec {events : List Event} (ok : valid s events = true)
    (room : s.lastConnId + events.countP Event.isConstruct < 2 ^ 64) :
    ∃ s', events.foldlM step s = some s' ∧ Consistent s' := by
  induction events generalizing s with
  | nil => exact ⟨s, rfl, consistent⟩
  | cons e events ih =>
    rw [valid, Bool.and_eq_true] at ok
    rw [List.countP_cons] at room
    obtain ⟨s₁, stepped, consistent₁, last⟩ := step_spec consistent ok.1 (by omega)
    rw [stepped] at ok
    obtain ⟨s', ran, consistent'⟩ := ih consistent₁ ok.2 (by omega)
    refine ⟨s', ?_, consistent'⟩
    rwa [List.foldlM_cons, stepped]

end

/-- After any allowed sequence of events no pointer has been followed to an object that was not
alive, the connections are found by their numbers, datapaths lead to live main connections, main
and auxiliary connections point to live ones, and destroying a connection leaves every other one
registered. -/
theorem run_consistent (events : List Event) (ok : valid .empty events = true)
    (few : events.countP Event.isConstruct < 2 ^ 64) :
    ∃ s, run events = some s ∧
      (∃ conns, s.connList.mapM s.heap = some conns ∧
        (conns.map Connection.connId).Pairwise (· < ·)) ∧
      (∀ connId ≠ 0, ∃ found, findConnId s connId = some found ∧
        ∀ p, found = some p ↔ ∃ c, s.heap p = some c ∧ c.connId = connId) ∧
      (∀ d p, s.dpidMap d = some p →
        ∃ c, s.heap p = some c ∧ c.datapathId = d ∧ c.auxiliaryId = 0) ∧
      (∀ d old new, s.dpidMap d = some new → old ≠ new → (s.heap old).isSome →
        ∃ s', step s (.destroy old) = some s' ∧ s'.dpidMap d = some new) ∧
      ∀ p c, s.heap p = some c →
        (s.heap c.mainConn).isSome ∧ ∀ q ∈ c.auxList, (s.heap q).isSome := by
  obtain ⟨s, ran, consistent⟩ := foldlM_spec consistent_empty ok (by simpa [Engine.empty] using few)
  refine ⟨s, ran, ?_, ?_, ?_, ?_, ?_⟩
  · obtain ⟨conns, followed, -, increasing⟩ := consistent.toListing.conns
    exact ⟨conns, followed, increasing⟩
  · intro connId nonzero
    rcases consistent.toListing.findConnIter_eq nonzero with
      ⟨i, p, c, found, here, alive, same⟩ | ⟨found, none⟩
    · refine ⟨some p, by simp [findConnId, found, here], fun q => ⟨?_, ?_⟩⟩
      · rintro ⟨⟩
        exact ⟨c, alive, same⟩
      · rintro ⟨e, alive', same'⟩
        rw [consistent.toListing.connId_inj alive alive' (same.trans same'.symm)]
    · refine ⟨.none, by simp [findConnId, found], fun q => ⟨by simp, ?_⟩⟩
      rintro ⟨e, alive, same⟩
      exact absurd same (none q e alive)
  · intro d p maps
    exact (consistent.mapped d p maps).2
  · intro d old new maps other live
    obtain ⟨c, alive⟩ := Option.isSome_iff_exists.mp live
    obtain ⟨s', destroyed, -, -, kept⟩ := destroy_spec consistent alive
    exact ⟨s', destroyed, kept d new other.symm maps⟩
  · intro p c alive
    constructor
    · by_cases own : c.mainConn = p
      · rw [own, alive]
        rfl
      · obtain ⟨-, -, m, aliveMain, -⟩ := consistent.auxiliary p c alive own
        rw [aliveMain]
        rfl
    · intro q member
      obtain ⟨-, -, -, a, aliveAux, -⟩ := consistent.owned p c alive q member
      rw [aliveAux]
      rfl

/-- A main connection with an auxiliary one is replaced, and then destroyed. -/
theorem run_consistent_replaced :
    let events : List Event := [.construct 1 kPermitsAuxiliary, .postDatapath 1 7 0,
      .construct 2 0, .postDatapath 2 7 3, .construct 3 0, .postDatapath 3 7 0, .destroy 1]
    ∃ s, run events = some s ∧ s.connList = [2, 3] ∧ s.dpidMap 7 = some 3 ∧
      ∃ c, s.heap 3 = some c ∧ c.datapathId = 7 ∧ c.auxiliaryId = 0 := by
  intro events
  obtain ⟨s, ran, -, -, mapped, -⟩ := run_consistent events (by decide +kernel) (by decide)
  have left : (run events).map (fun s => (s.connList, s.dpidMap 7)) = some ([2, 3], some 3) := by
    decide +kernel
  simp only [ran, Option.map_some, Option.some.injEq, Prod.mk.injEq] at left
  exact ⟨s, ran, left.1, left.2, mapped 7 3 left.2⟩

end

end Libofp.Sys.Registry
