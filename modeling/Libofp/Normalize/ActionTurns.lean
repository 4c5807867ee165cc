/- GID: Libofp/Normalize/ActionTurns
   digest: What one turn of the action loop does. -/

import Libofp.Normalize.ActionRewrite

set_option autoImplicit false

namespace Libofp.Normalize.ActionTurns

open Octets.ByteRange Octets.ByteList Octets.BigEndian
open Base.Iteration Oxm.Field Messages Actions.ActionRange ActionRewrite

/-- A set-field action of this length is rewritten: whole units of 8 bytes that hold the
value, or no length at all. -/
def Rewrites (f : OxmField) (size : Nat) : Prop := size % 8 = 0 ∧ (size = 0 ∨ f.size + 4 ≤ size)

instance (f : OxmField) (size : Nat) : Decidable (Rewrites f size) := instDecidableAnd

/-- The replacement of one action: the length that the old action states, how many bytes
of its value are read, and the new action. -/
structure Rewrite where
  size : Nat
  read : Nat
  out : Bytes
  full : out.length = 16
  stated : actionLength (out.take 4) = 16

theorem length_setFieldList (f : OxmField) {value : Bytes} (whole : value.length = f.size) :
    (pad8 (oxmEntry f value) 4).length = 12 := by
  have positive := f.size_pos
  have small := f.size_le
  simp only [pad8, oxmEntry, List.length_append, List.length_replicate, length_bigBytes, whole,
    padLength]
  omega

def setFieldRewrite (host : Host) (f : OxmField) (size : Nat) (value : Bytes)
    (whole : value.length = f.size) : Rewrite where
  size := size
  read := f.size
  out := bigBytes 2 OFPAT.setField ++ bigBytes 2 16 ++
    pad8 (oxmEntry f (throughNative host f value)) 4
  full := by
    rw [List.length_append, length_setFieldList f (by rw [length_throughNative, whole])]
    rfl
  stated := by
    rw [List.take_append_of_le_length (by simp)]
    rfl

def outputRewrite (value : Bytes) : Rewrite where
  size := 8
  read := 4
  out := atOutput (normPortNumberV1 (big16 value 0)) (big16 value 2)
  full := by simp [atOutput]
  stated := by
    unfold atOutput
    iterate 3 rw [List.take_append_of_le_length (by simp)]
    rfl

def fieldOf (version ipProto : Nat) (header : Bytes) : Option OxmField :=
  let type := enumType header
  if type ≤ 11 ∨ type = 13 ∨ type = 14 then setFieldOf (schemaType version type) ipProto
  else none

section

variable (host : Host) (slack : Slack) (ipProto : Nat) (c : Cursor)

def fieldAt : Option OxmField := fieldOf (Header.version c.buf) ipProto (c.header slack)

def rewriteAt : Option Rewrite :=
  if enumType (c.header slack) = OFPAT.output then
    if actionLength (c.header slack) = 8 then
      some (outputRewrite (fetch slack c.buf (c.iter + 4) 4))
    else none
  else (fieldAt slack ipProto c).bind fun f =>
    if Rewrites f (actionLength (c.header slack)) then
      some (setFieldRewrite host f (actionLength (c.header slack))
        (fetch slack c.buf (c.iter + 4) f.size) (length_fetch ..))
    else none

/-- The buffer after room has been made for 16 bytes in the place of `size` bytes. -/
def resized (size : Nat) : Bytes :=
  if size < 16 then insertUninitialized slack c.buf (c.iter + 4) (16 - size)
  else remove c.buf c.iter (size - 16)

/-- The accesses of a replacement: the value is read, bytes are taken out when the old
action is longer, and the new action is stored. -/
def replaceAccesses (r : Rewrite) : List Access :=
  ⟨c.iter, 16, (resized slack c r.size).length⟩ ::
    ((if 16 < r.size then [⟨c.iter, r.size - 16, c.buf.length⟩] else []) ++
      [⟨c.iter + 4, r.read, c.buf.length⟩])

def edited (r : Rewrite) : Cursor where
  buf := poke (resized slack c r.size) c.iter r.out
  iter := c.iter
  iterEnd := c.iterEnd + (16 - r.size)
  lengthChange := c.lengthChange + (16 - r.size)
  accesses := replaceAccesses slack c r ++ c.accesses

def passed : Cursor :=
  { c with
    iter := c.iter + padLength (max 4 (actionLength (c.header slack)))
    accesses := ⟨c.iter, 4, c.buf.length⟩ :: ⟨c.iter, 4, c.buf.length⟩ :: c.accesses }

def replaced (r : Rewrite) : Cursor where
  buf := poke (resized slack c r.size) c.iter r.out
  iter := c.iter + 16
  iterEnd := c.iterEnd + (16 - r.size)
  lengthChange := c.lengthChange + (16 - r.size)
  accesses := ⟨c.iter, 4, (resized slack c r.size).length⟩ ::
    (replaceAccesses slack c r ++ ⟨c.iter, 4, c.buf.length⟩ :: c.accesses)

/-! The touch of the header at the start of a turn changes nothing but the record. -/

@[simp] theorem touch_buf (pos len : Nat) : (c.touch pos len).buf = c.buf := rfl

@[simp] theorem touch_iter (pos len : Nat) : (c.touch pos len).iter = c.iter := rfl

@[simp] theorem touch_header (pos len : Nat) : (c.touch pos len).header slack = c.header slack :=
  rfl

@[simp] theorem length_resized (size : Nat) (room : c.iter + size ≤ c.buf.length) :
    (resized slack c size).length = c.buf.length + 16 - size := by
  unfold resized
  split
  · rw [length_insertUninitialized]
    omega
  · rw [length_remove _ (by omega)]
    omega

private theorem normOutput_eq (h : enumType (c.header slack) = OFPAT.output)
    (h8 : actionLength (c.header slack) = 8) :
    normOutput slack c =
      if c.iter + 8 ≤ c.buf.length then
        .done (edited slack c (outputRewrite (fetch slack c.buf (c.iter + 4) 4)))
      else .fault := by
  have full := (outputRewrite (fetch slack c.buf (c.iter + 4) 4)).full
  simp only [outputRewrite] at full
  simp only [normOutput, h, h8, and_self, if_true, Cursor.store, touch_buf, touch_iter, full,
    length_insertUninitialized]
  by_cases room : c.iter + 8 ≤ c.buf.length
  · rw [if_pos (by omega), if_pos room]
    rfl
  · rw [if_neg (by omega), if_neg room]

private theorem normSetField_pass (f : OxmField)
    (h : ¬ Rewrites f (actionLength (c.header slack))) :
    normSetField host slack f c = .done c := by
  unfold Rewrites at h
  simp only [normSetField]
  by_cases units : actionLength (c.header slack) % 8 = 0
  · rw [if_neg (by omega), if_neg (by omega)]
  · rw [if_pos units]

private theorem resize_eq {size : Nat} (room : c.iter + size ≤ c.buf.length) :
    c.resize slack (16 - size) =
      .done { c with
        buf := resized slack c size
        accesses := (if 16 < size then [⟨c.iter, size - 16, c.buf.length⟩] else []) ++
          c.accesses } := by
  unfold Cursor.resize resized
  rcases Nat.lt_trichotomy size 16 with short | rfl | long
  · have difference : ((16 : Int) - size).toNat = 16 - size := by omega
    rw [if_pos (by omega), if_pos short, if_neg (by omega), difference]
    rfl
  · simp [remove]
  · have difference : (-((16 : Int) - size)).toNat = size - 16 := by omega
    rw [if_neg (by omega), if_pos (by omega), if_neg (by omega), if_pos long, difference]
    simp only [Cursor.removeHere]
    rw [if_pos (by omega)]
    rfl

private theorem resize_bind_fault {size : Nat} (noRoom : c.buf.length < c.iter + size)
    {next : Cursor → Outcome Cursor}
    (fails : ∀ d, d.iter = c.iter → d.buf.length < c.iter + 16 → next d = .fault) :
    (c.resize slack (16 - size)).bind next = .fault := by
  unfold Cursor.resize
  rcases Nat.lt_trichotomy size 16 with short | rfl | long
  · rw [if_pos (by omega), Outcome.bind_done]
    apply fails
    · rfl
    · simp only [length_insertUninitialized]
      omega
  · exact fails c rfl noRoom
  · rw [if_neg (by omega), if_pos (by omega), Cursor.removeHere]
    split
    · apply fails
      · rfl
      · simp only [length_remove c.buf (by assumption)]
        omega
    · rfl

private theorem normSetField_eq (f : OxmField) (h : Rewrites f (actionLength (c.header slack))) :
    normSetField host slack f c =
      if c.iter + actionLength (c.header slack) ≤ c.buf.length then
        .done (edited slack c (setFieldRewrite host f (actionLength (c.header slack))
          (fetch slack c.buf (c.iter + 4) f.size) (length_fetch ..)))
      else .fault := by
  have small := f.size_le
  have bound : actionLength (c.header slack) < 65536 := big16_lt _ 2
  have whole : (throughNative host f (fetch slack c.buf (c.iter + 4) f.size)).length = f.size := by
    rw [length_throughNative, length_fetch]
  have twelve := length_setFieldList f whole
  unfold Rewrites at h
  simp only [normSetField]
  rw [if_neg (by omega), if_pos (by omega), twelve]
  generalize actionLength (c.header slack) = size at *
  have change : ((12 : Nat) : Int) - (size - 4) = 16 - size := by omega
  have full := (setFieldRewrite host f size (fetch slack c.buf (c.iter + 4) f.size)
    (length_fetch ..)).full
  simp only [setFieldRewrite] at full
  rw [change]
  by_cases room : c.iter + size ≤ c.buf.length
  · have enough := length_resized slack c size room
    rw [if_pos room, resize_eq slack (c.touch (c.iter + 4) f.size) room, Outcome.bind_done]
    simp only [Cursor.store, touch_iter, full]
    have place : c.iter + 16 ≤ (resized slack (c.touch (c.iter + 4) f.size) size).length := by
      show c.iter + 16 ≤ (resized slack c size).length
      omega
    rw [if_pos place]
    simp only [edited, replaceAccesses, setFieldRewrite, Cursor.touch, List.cons_append,
      List.append_assoc, List.nil_append]
    rfl
  · rw [if_neg room]
    apply resize_bind_fault slack (c.touch (c.iter + 4) f.size) (Nat.lt_of_not_le room)
    intro d same short
    simp only [Cursor.store, full]
    rw [if_neg (by omega)]

private theorem next_edited (r : Rewrite) (room : c.iter + r.size ≤ c.buf.length) :
    Cursor.next slack (edited slack (c.touch c.iter 4) r) = replaced slack c r := by
  have enough := length_resized slack c r.size room
  have size : (poke (resized slack c r.size) c.iter r.out).length =
      (resized slack c r.size).length :=
    length_poke _ (by rw [r.full]; omega)
  have header : fetch slack (poke (resized slack c r.size) c.iter r.out) c.iter 4 =
      r.out.take 4 := by
    rw [fetch_eq_window slack (by omega), window_poke (by omega) (by rw [r.full]; omega)]
  have stated : actionLength ((edited slack (c.touch c.iter 4) r).header slack) = 16 := by
    rw [← r.stated, ← header]
    rfl
  simp only [Cursor.next, touch_header, stated]
  simp only [edited, replaced, Cursor.touch, resized, replaceAccesses] at size ⊢
  rw [size]
  rfl

theorem schemaType_eq_output_iff (version type : Nat) :
    schemaType version type = OFPAT.output ↔ type = OFPAT.output := by
  unfold schemaType OFPAT.output OFPAT.stripVlanV1 OFPAT.enqueueV1
  grind

private theorem dispatch_pass (h : rewriteAt host slack ipProto c = none) :
    (if enumType (c.header slack) ≤ 11 ∨ enumType (c.header slack) = 13 ∨
        enumType (c.header slack) = 14 then
      normActionV1orV2 host slack (enumType (c.header slack)) ipProto c
    else .done c) = .done c := by
  split
  · rename_i listed
    simp only [rewriteAt, fieldAt, fieldOf, if_pos listed] at h
    simp only [normActionV1orV2, schemaType_eq_output_iff]
    split
    · rename_i output
      rw [if_pos output] at h
      have other : ¬ actionLength (c.header slack) = 8 := fun eight => by simp [eight] at h
      simp [normOutput, output, other]
    · rename_i notOutput
      rw [if_neg notOutput] at h
      cases field : setFieldOf (schemaType (Header.version c.buf) (enumType (c.header slack)))
          ipProto with
      | none => rfl
      | some f =>
        simp only [field, Option.bind_some, ite_eq_right_iff, reduceCtorEq, imp_false] at h
        exact normSetField_pass host slack c f h
  · rfl

theorem normTurn_pass (h : rewriteAt host slack ipProto c = none) :
    normTurn host slack ipProto c = .done (passed slack c) := by
  have same : rewriteAt host slack ipProto (c.touch c.iter 4) = none := h
  simp only [normTurn]
  rw [dispatch_pass host slack ipProto _ same]
  rfl

private theorem dispatch_replace {r : Rewrite} (h : rewriteAt host slack ipProto c = some r) :
    (if enumType (c.header slack) ≤ 11 ∨ enumType (c.header slack) = 13 ∨
        enumType (c.header slack) = 14 then
      normActionV1orV2 host slack (enumType (c.header slack)) ipProto c
    else .done c) =
      if c.iter + r.size ≤ c.buf.length then .done (edited slack c r) else .fault := by
  by_cases output : enumType (c.header slack) = OFPAT.output
  · simp only [rewriteAt, if_pos output, Option.ite_none_right_eq_some, Option.some.injEq] at h
    obtain ⟨eight, rfl⟩ := h
    rw [if_pos (by rw [output]; simp [OFPAT.output])]
    simp only [normActionV1orV2, schemaType_eq_output_iff, if_pos output]
    exact normOutput_eq slack c output eight
  · simp only [rewriteAt, if_neg output, fieldAt, fieldOf] at h
    split at h
    · rename_i listed
      obtain ⟨f, field, h⟩ := Option.bind_eq_some_iff.mp h
      simp only [Option.ite_none_right_eq_some, Option.some.injEq] at h
      obtain ⟨rewrites, rfl⟩ := h
      rw [if_pos listed]
      simp only [normActionV1orV2, schemaType_eq_output_iff, if_neg output, field]
      exact normSetField_eq host slack c f rewrites
    · simp at h

/-- An action with a replacement is replaced when the buffer holds as many bytes as the
action states; otherwise memory past the end is written. -/
theorem normTurn_replace {r : Rewrite} (h : rewriteAt host slack ipProto c = some r) :
    normTurn host slack ipProto c =
      if c.iter + r.size ≤ c.buf.length then .done (replaced slack c r) else .fault := by
  have same : rewriteAt host slack ipProto (c.touch c.iter 4) = some r := h
  simp only [normTurn]
  rw [dispatch_replace host slack ipProto _ same, touch_iter, touch_buf]
  by_cases room : c.iter + r.size ≤ c.buf.length
  · rw [if_pos room, if_pos room, Outcome.map_done, next_edited slack c r room]
  · rw [if_neg room, if_neg room, Outcome.map_fault]

end

end Libofp.Normalize.ActionTurns
