/- GID: Libofp/Octets/ByteList
   digest: The byte buffer that messages are rewritten in, and its editing operations. -/

import Libofp.Octets.BigEndian
import Mathlib.Data.List.GetD
import Mathlib.Tactic.Common

/-! A `ByteList` is the list of its bytes. Its memory goes on past the end of the list:
what lies there is uninitialised, and code that opens a gap or reads too far sees it. -/

set_option autoImplicit false

namespace Libofp.Octets.ByteList

open ByteRange BigEndian

/-- What the memory past the end of a buffer holds, by the buffer and the position. -/
abbrev Slack := Bytes → Nat → UInt8

def cell (slack : Slack) (buf : Bytes) (pos : Nat) : UInt8 := buf.getD pos (slack buf pos)

/-- The `len` bytes of memory from a position on. -/
def fetch (slack : Slack) (buf : Bytes) (pos len : Nat) : Bytes :=
  (List.range len).map fun i => cell slack buf (pos + i)

/-- The `len` bytes of the buffer from a position on. -/
def window (buf : Bytes) (pos len : Nat) : Bytes := (buf.drop pos).take len

/-- `ByteList::insertUninitialized`: the tail moves up and the gap keeps the old bytes. -/
def insertUninitialized (slack : Slack) (buf : Bytes) (pos len : Nat) : Bytes :=
  buf.take pos ++ fetch slack buf pos len ++ buf.drop pos

def insert (buf : Bytes) (pos : Nat) (data : Bytes) : Bytes :=
  buf.take pos ++ data ++ buf.drop pos

def insertZeros (buf : Bytes) (pos len : Nat) : Bytes := insert buf pos (List.replicate len 0)

def addUninitialized (slack : Slack) (buf : Bytes) (len : Nat) : Bytes :=
  buf ++ fetch slack buf buf.length len

def remove (buf : Bytes) (pos len : Nat) : Bytes := buf.take pos ++ buf.drop (pos + len)

def replace (buf : Bytes) (pos posEnd : Nat) (data : Bytes) : Bytes :=
  buf.take pos ++ data ++ buf.drop posEnd

/-- `std::memcpy` of `data` into the buffer. -/
def poke (buf : Bytes) (pos : Nat) (data : Bytes) : Bytes :=
  replace buf pos (pos + data.length) data

section

variable (slack : Slack) (buf : Bytes)

@[simp] theorem length_fetch (pos len : Nat) : (fetch slack buf pos len).length = len := by
  simp [fetch]

theorem length_window {pos len : Nat} (inside : pos + len ≤ buf.length) :
    (window buf pos len).length = len := by
  simp only [window, List.length_take, List.length_drop]
  omega

theorem length_window_le (pos len : Nat) : (window buf pos len).length ≤ len := by
  simp only [window, List.length_take]
  omega

@[simp] theorem length_insert (pos : Nat) (data : Bytes) :
    (insert buf pos data).length = buf.length + data.length := by
  simp only [insert, List.length_append, List.length_take, List.length_drop]
  omega

@[simp] theorem length_insertUninitialized (pos len : Nat) :
    (insertUninitialized slack buf pos len).length = buf.length + len := by
  simp only [insertUninitialized, List.length_append, List.length_take, List.length_drop,
    length_fetch]
  omega

@[simp] theorem length_insertZeros (pos len : Nat) :
    (insertZeros buf pos len).length = buf.length + len := by
  rw [insertZeros, length_insert, List.length_replicate]

theorem length_remove {pos len : Nat} (inside : pos + len ≤ buf.length) :
    (remove buf pos len).length = buf.length - len := by
  simp only [remove, List.length_append, List.length_take, List.length_drop]
  omega

theorem length_poke {pos : Nat} {data : Bytes} (inside : pos + data.length ≤ buf.length) :
    (poke buf pos data).length = buf.length := by
  simp only [poke, replace, List.length_append, List.length_take, List.length_drop]
  omega

theorem window_one {buf : Bytes} {k : Nat} (inside : k < buf.length) :
    window buf k 1 = bigBytes 1 (big8 buf k) := by
  rw [window, List.drop_eq_getElem_cons inside, List.take_succ_cons, List.take_zero]
  simp [bigBytes, big8, inside]

theorem bigBytes_big16 {buf : Bytes} {k : Nat} (inside : k + 2 ≤ buf.length) :
    bigBytes 2 (big16 buf k) = window buf k 2 := by
  have spelled : bigNat (window buf k 2) = big16 buf k := by
    rw [window, ← Nat.add_zero k, ← big16_drop]
    have long : 2 ≤ (buf.drop k).length := by
      rw [List.length_drop]
      omega
    match buf.drop k, long with
    | a :: b :: rest, _ => simp [bigNat, big16, big8]
  rw [← spelled]
  have whole := bigBytes_bigNat (window buf k 2)
  rwa [length_window buf inside] at whole

theorem bigBytes_big32 {buf : Bytes} {k : Nat} (inside : k + 4 ≤ buf.length) :
    bigBytes 4 (big32 buf k) = window buf k 4 := by
  have spelled : bigNat (window buf k 4) = big32 buf k := by
    rw [window, ← Nat.add_zero k, ← big32_drop]
    have long : 4 ≤ (buf.drop k).length := by
      rw [List.length_drop]
      omega
    match buf.drop k, long with
    | a :: b :: c :: d :: rest, _ =>
      simp [bigNat, big32, big16, big8]
      omega
  rw [← spelled]
  have whole := bigBytes_bigNat (window buf k 4)
  rwa [length_window buf inside] at whole

theorem length_poke_of {buf : Bytes} {pos size : Nat} {data : Bytes} (n : Nat)
    (inside : pos + n ≤ size) (short : data.length ≤ n) (h : buf.length = size) :
    (poke buf pos data).length = size := by
  rw [length_poke buf (by omega), h]

end

theorem drop_fetch (slack : Slack) (buf : Bytes) (pos len k : Nat) :
    (fetch slack buf pos len).drop k = fetch slack buf (pos + k) (len - k) := by
  apply List.ext_getElem
  · simp
  · intro i _ _
    simp [fetch, Nat.add_assoc]

theorem fetch_eq_window (slack : Slack) {buf : Bytes} {pos len : Nat}
    (inside : pos + len ≤ buf.length) : fetch slack buf pos len = window buf pos len := by
  apply List.ext_getElem
  · rw [length_fetch, length_window buf inside]
  · intro i hi _
    rw [length_fetch] at hi
    have within : pos + i < buf.length := by omega
    simp [fetch, window, cell, List.getElem?_eq_getElem within]

section

variable (slack : Slack) {buf : Bytes} {pos : Nat} (inside : pos ≤ buf.length)

include inside

theorem take_insertUninitialized (len : Nat) {k : Nat} (before : k ≤ pos) :
    (insertUninitialized slack buf pos len).take k = buf.take k := by
  rw [insertUninitialized, List.append_assoc,
    List.take_append_of_le_length (by rw [List.length_take]; omega), List.take_take,
    Nat.min_eq_left before]

theorem drop_insertUninitialized {len k : Nat} (within : k ≤ len) :
    (insertUninitialized slack buf pos len).drop (pos + k) =
      fetch slack buf (pos + k) (len - k) ++ buf.drop pos := by
  have front : (buf.take pos).length = pos := by
    rw [List.length_take]
    omega
  rw [insertUninitialized, List.append_assoc, ← List.drop_drop, List.drop_left' front,
    List.drop_append_of_le_length (by rw [length_fetch]; exact within), drop_fetch]

theorem drop_insertUninitialized_add (len j : Nat) :
    (insertUninitialized slack buf pos len).drop (pos + len + j) = buf.drop (pos + j) := by
  have empty : fetch slack buf (pos + len) 0 = [] := rfl
  rw [← List.drop_drop, drop_insertUninitialized slack inside (Nat.le_refl len), Nat.sub_self,
    empty, List.nil_append, List.drop_drop]

end

theorem window_poke {buf data : Bytes} {pos len : Nat} (inside : pos ≤ buf.length)
    (short : len ≤ data.length) : window (poke buf pos data) pos len = data.take len := by
  have front : (buf.take pos).length = pos := by
    rw [List.length_take]
    omega
  simp only [poke, replace, window]
  rw [List.append_assoc, List.drop_left' front, List.take_append_of_le_length short]

theorem window_append_left {x : Bytes} (y : Bytes) {pos len : Nat}
    (inside : pos + len ≤ x.length) : window (x ++ y) pos len = window x pos len := by
  rw [window, window, List.drop_append_of_le_length (by omega),
    List.take_append_of_le_length (by rw [List.length_drop]; omega)]

theorem window_append_right {x : Bytes} (y : Bytes) {pos : Nat} (front : x.length = pos)
    (k len : Nat) : window (x ++ y) (pos + k) len = window y k len := by
  rw [window, window, ← List.drop_drop, List.drop_left' front]

theorem window_skip {x : Bytes} (y : Bytes) {pos : Nat} (behind : x.length ≤ pos) (len : Nat) :
    window (x ++ y) pos len = window y (pos - x.length) len := by
  obtain ⟨k, rfl⟩ := Nat.exists_eq_add_of_le behind
  rw [window_append_right y rfl, Nat.add_sub_cancel_left]

theorem window_here {x : Bytes} (y : Bytes) {len : Nat} (size : x.length = len) :
    window (x ++ y) 0 len = x := by
  rw [window, List.drop_zero, List.take_left' size]

theorem window_part {x y : Bytes} (z : Bytes) {pos len : Nat} (front : x.length = pos)
    (size : y.length = len) : window (x ++ (y ++ z)) pos len = y := by
  rw [window, List.drop_left' front, List.take_left' size]

theorem window_append_drop (buf : Bytes) (pos len : Nat) :
    window buf pos len ++ buf.drop (pos + len) = buf.drop pos := by
  rw [window, ← List.drop_drop, List.take_append_drop]

theorem window_append_window (buf : Bytes) {pos len next : Nat} (len' : Nat)
    (follows : pos + len = next) :
    window buf pos len ++ window buf next len' = window buf pos (len + len') := by
  rw [window, window, window, ← follows, ← List.drop_drop, List.take_add]

theorem window_all {buf : Bytes} {len : Nat} (size : buf.length = len) :
    window buf 0 len = buf := by
  rw [window, List.drop_zero, List.take_of_length_le size.le]

theorem take_window_drop (buf : Bytes) (pos len : Nat) :
    buf.take pos ++ (window buf pos len ++ buf.drop (pos + len)) = buf := by
  rw [window_append_drop, List.take_append_drop]

theorem poke_append {x old y data : Bytes} {pos : Nat} (place : x.length = pos)
    (same : old.length = data.length) : poke (x ++ (old ++ y)) pos data = x ++ (data ++ y) := by
  subst place
  rw [poke, replace, List.take_left, List.drop_length_add_append, ← same, List.drop_left,
    List.append_assoc]

theorem poke_append_left {x data : Bytes} (y : Bytes) {pos : Nat}
    (inside : pos + data.length ≤ x.length) : poke (x ++ y) pos data = poke x pos data ++ y := by
  rw [poke, poke, replace, replace, List.take_append_of_le_length (by omega),
    List.drop_append_of_le_length inside, List.append_assoc, List.append_assoc, List.append_assoc]

theorem poke_append_right {x : Bytes} (y : Bytes) {pos : Nat} (front : x.length = pos) (k : Nat)
    (data : Bytes) : poke (x ++ y) (pos + k) data = x ++ poke y k data := by
  subst front
  rw [poke, poke, replace, replace, List.take_length_add_append, Nat.add_assoc,
    List.drop_length_add_append]
  simp

theorem take_poke (data : Bytes) {buf : Bytes} {pos k : Nat} (inside : pos ≤ buf.length)
    (before : k ≤ pos) : (poke buf pos data).take k = buf.take k := by
  rw [poke, replace, List.append_assoc,
    List.take_append_of_le_length (by rw [List.length_take]; omega), List.take_take,
    Nat.min_eq_left before]

theorem drop_poke {buf data : Bytes} {pos k : Nat} (inside : pos ≤ buf.length)
    (behind : pos + data.length ≤ k) : (poke buf pos data).drop k = buf.drop k := by
  obtain ⟨j, rfl⟩ := Nat.exists_eq_add_of_le behind
  have front : (buf.take pos ++ data).length = pos + data.length := by
    rw [List.length_append, List.length_take]
    omega
  rw [poke, replace, ← List.drop_drop, List.drop_left' front, List.drop_drop]

theorem poke_window {buf : Bytes} {pos len : Nat} (inside : pos + len ≤ buf.length) :
    poke buf pos (window buf pos len) = buf := by
  rw [poke, replace, length_window buf inside, List.append_assoc, take_window_drop]

/-- The buffer begins with `front` and ends with `back`. -/
def Framed (front back buf : Bytes) : Prop := ∃ mid, buf = front ++ mid ++ back

section

variable {front back buf : Bytes}

theorem framed_self (pos len : Nat) : Framed (buf.take pos) (buf.drop (pos + len)) buf := by
  refine ⟨window buf pos len, ?_⟩
  rw [List.append_assoc, take_window_drop]

section

variable (h : Framed front back buf)

include h

theorem Framed.drop_eq {pos : Nat}
    (stop : pos + back.length = buf.length) : buf.drop pos = back := by
  obtain ⟨mid, rfl⟩ := h
  rw [List.length_append] at stop
  exact List.drop_left' (by omega)

theorem Framed.replace {pos posEnd : Nat} (data : Bytes) (behind : front.length ≤ pos)
    (ordered : pos ≤ posEnd) (ahead : posEnd + back.length ≤ buf.length) :
    Framed front back (ByteList.replace buf pos posEnd data) := by
  obtain ⟨mid, rfl⟩ := h
  obtain ⟨i, rfl⟩ := Nat.exists_eq_add_of_le behind
  obtain ⟨j, rfl⟩ := Nat.exists_eq_add_of_le ordered
  simp only [List.length_append] at ahead
  refine ⟨mid.take i ++ data ++ mid.drop (i + j), ?_⟩
  have before : (front ++ (mid ++ back)).take (front.length + i) = front ++ mid.take i := by
    rw [List.take_length_add_append, List.take_append_of_le_length (by omega)]
  have after : (front ++ (mid ++ back)).drop (front.length + (i + j)) =
      mid.drop (i + j) ++ back := by
    rw [List.drop_length_add_append, List.drop_append_of_le_length (by omega)]
  rw [ByteList.replace, List.append_assoc front mid back, before, Nat.add_assoc, after]
  simp

theorem Framed.poke {pos : Nat} {data : Bytes}
    (behind : front.length ≤ pos) (ahead : pos + data.length + back.length ≤ buf.length) :
    Framed front back (ByteList.poke buf pos data) :=
  h.replace data behind (Nat.le_add_right ..) ahead

theorem Framed.insertUninitialized (slack : Slack) {pos : Nat}
    (len : Nat) (behind : front.length ≤ pos) (ahead : pos + back.length ≤ buf.length) :
    Framed front back (ByteList.insertUninitialized slack buf pos len) :=
  h.replace (fetch slack buf pos len) behind (Nat.le_refl pos) ahead

theorem Framed.remove {pos len : Nat}
    (behind : front.length ≤ pos) (ahead : pos + len + back.length ≤ buf.length) :
    Framed front back (ByteList.remove buf pos len) := by
  have same : ByteList.remove buf pos len = ByteList.replace buf pos (pos + len) [] := by
    rw [ByteList.remove, ByteList.replace, List.append_nil]
  rw [same]
  exact h.replace [] behind (Nat.le_add_right ..) ahead

end

end

end Libofp.Octets.ByteList
