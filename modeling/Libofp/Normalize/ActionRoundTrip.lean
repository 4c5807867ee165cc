/- GID: Libofp/Normalize/ActionRoundTrip
   digest: Actions written to a version 1 channel and normalised again. -/

import Libofp.Actions.WriteSize
import Libofp.Normalize.ActionProgress

set_option autoImplicit false

namespace Libofp.Normalize.ActionRoundTrip

open Octets.ByteRange Octets.ByteList Octets.BigEndian
open Base.Iteration Oxm.Field Messages
open Actions.ActionRange Actions.Writing Actions.WriteSize
open ActionRewrite ActionTurns ActionSpans ActionProgress

inductive Proto where
  | tcp
  | udp
  | icmp
  deriving DecidableEq, Repr

def Proto.number : Proto → Nat
  | tcp => 6
  | udp => 17
  | icmp => 1

def Proto.sets (p : Proto) : OxmField → Bool
  | .vlanVid | .vlanPcp | .ethSrc | .ethDst | .ipv4Src | .ipv4Dst | .ipDscp => true
  | .tcpSrc | .tcpDst => p == .tcp
  | .udpSrc | .udpDst => p == .udp
  | .icmpv4Type | .icmpv4Code => p == .icmp
  | _ => false

/-- The actions that version 1 has. Port numbers of an output are physical ports or the
reserved ones, which have a 16-bit form. -/
inductive Action (p : Proto) where
  | output (port : BitVec 32) (maxlen : BitVec 16)
      (narrow : port.toNat ≤ 0xFF00 ∨ 0xFFFFFF01 ≤ port.toNat)
  | setField (f : OxmField) (value : Bytes) (whole : value.length = f.size)
      (allowed : p.sets f = true)

/-- The memory of an `AT_SET_FIELD`. -/
def atSetField (f : OxmField) (value : Bytes) : Bytes :=
  bigBytes 2 OFPAT.setField ++ bigBytes 2 16 ++ pad8 (oxmEntry f value) 4

section

variable {p : Proto}

def Action.encode : Action p → Bytes
  | .output port maxlen _ => atOutput port.toNat maxlen.toNat
  | .setField f value _ _ => atSetField f value

/-- What comes back: a value goes through the native type of its field. -/
def Action.decoded (host : Host) : Action p → Bytes
  | .output port maxlen _ => atOutput port.toNat maxlen.toNat
  | .setField f value _ _ => atSetField f (throughNative host f value)

def isPort : OxmField → Bool
  | .tcpSrc | .tcpDst | .udpSrc | .udpDst => true
  | _ => false

/-- A port number that reads the same in both byte orders. -/
def Action.Symmetric : Action p → Prop
  | .output .. => True
  | .setField f value _ _ => isPort f = true → ∃ x, value = [x, x]

def encodeAll (acts : List (Action p)) : Bytes := acts.flatMap Action.encode

theorem length_atSetField (f : OxmField) {value : Bytes} (whole : value.length = f.size) :
    (atSetField f value).length = 16 := by
  simp [atSetField, length_bigBytes, length_setFieldList f whole]

theorem length_encode (a : Action p) : a.encode.length = 16 := by
  cases a with
  | output port maxlen _ => simp [Action.encode, atOutput]
  | setField f value whole _ => exact length_atSetField f whole

private theorem length_decoded (host : Host) (a : Action p) : (a.decoded host).length = 16 := by
  cases a with
  | output port maxlen _ => simp [Action.decoded, atOutput]
  | setField f value whole _ =>
    exact length_atSetField f (by rw [length_throughNative, whole])

private theorem actionLength_encode (a : Action p) (rest : Bytes) :
    actionLength (a.encode ++ rest) = 16 := by
  cases a with
  | output port maxlen _ =>
    simp only [Action.encode, atOutput, List.append_assoc]
    rw [← List.append_assoc, actionLength_header]
  | setField f value _ _ =>
    simp only [Action.encode, atSetField, List.append_assoc]
    rw [← List.append_assoc, actionLength_header]

theorem items_encodeAll (acts : List (Action p)) :
    actionLayout.items (encodeAll acts) = acts.map Action.encode := by
  induction acts with
  | nil => rfl
  | cons a acts ih =>
    have sixteen := actionLength_encode a (encodeAll acts)
    have size := length_encode a
    have nonempty : a.encode ++ encodeAll acts ≠ [] := by
      intro empty
      have : (a.encode ++ encodeAll acts).length = 0 := by rw [empty]; rfl
      rw [List.length_append] at this
      omega
    have whole : padLength 16 = a.encode.length := size.symm
    show actionLayout.items (a.encode ++ encodeAll acts) = _
    rw [items_first nonempty (by omega), sixteen, whole, List.take_left, List.drop_left, ih]
    rfl

private theorem write_encodeAll (acts : List (Action p)) :
    write 1 (encodeAll acts) = acts.flatMap fun a => writeV1 a.encode := by
  simp only [write, ne_eq, not_true, if_false, items_encodeAll, List.flatMap_map]

private theorem codeV1_of_sets {f : OxmField} (allowed : p.sets f = true) :
    ∃ code, codeV1 f = some code ∧ code ≤ 11 ∧
      setFieldOf (schemaType 1 code) p.number = some f := by
  cases f <;> cases p <;>
    first
    | exact absurd allowed (by decide)
    | exact ⟨_, rfl, by decide, by decide⟩

private theorem writeV1_atSetField {f : OxmField} {value : Bytes} {code : Nat}
    (whole : value.length = f.size) (known : codeV1 f = some code) :
    writeV1 (atSetField f value) =
      bigBytes 2 code ++ bigBytes 2 (padLength (4 + f.size)) ++
        (value ++ List.replicate (padLength (4 + f.size) - (4 + f.size)) 0) := by
  have notOutput : ¬ IsOutput (atSetField f value) := by
    rintro ⟨output, -⟩
    rw [atSetField, enumType_header] at output
    exact absurd output (by decide)
  have setField : enumType (atSetField f value) = OFPAT.setField := by
    rw [atSetField, enumType_header]
    rfl
  have field : oxmField (atSetField f value) = some f := by
    have small := f.type_lt
    have word : big32 (atSetField f value) 4 = f.type := by
      simp [atSetField, pad8, oxmEntry, big32, big16, big8, bigBytes]
      omega
    rw [oxmField, word, OxmField.ofType_type]
  have content : window (atSetField f value) 8 f.size = value := by
    simp only [atSetField, pad8, oxmEntry, window, ← List.append_assoc]
    rw [List.append_assoc _ value, List.drop_left' (by simp), List.take_left' whole]
  rw [writeV1, if_neg notOutput, if_pos setField, writeSetFieldV1_eq field known, atSetFieldV,
    content, List.append_assoc]

private theorem writeV1_atOutput (port maxlen : Nat) :
    writeV1 (atOutput port maxlen) =
      bigBytes 2 OFPAT.output ++ bigBytes 2 8 ++ (bigBytes 2 port ++ bigBytes 2 maxlen) := by
  have output : IsOutput (atOutput port maxlen) := by
    simp only [IsOutput, atOutput, List.append_assoc]
    rw [← List.append_assoc, enumType_header, actionLength_header]
    decide
  rw [writeV1, if_pos output]
  rfl

end

section

variable {p : Proto} (host : Host) (slack : Slack) {c : Cursor} {pre rest post : Bytes}

private theorem normPortNumberV1_narrow (port : BitVec 32)
    (narrow : port.toNat ≤ 0xFF00 ∨ 0xFFFFFF01 ≤ port.toNat) :
    normPortNumberV1 (port.toNat % 65536) = port.toNat := by
  unfold normPortNumberV1
  split <;> omega

private theorem rewriteAt_output (port : BitVec 32) (maxlen : BitVec 16)
    (narrow : port.toNat ≤ 0xFF00 ∨ 0xFFFFFF01 ≤ port.toNat)
    (h : Spans c pre (bigBytes 2 OFPAT.output ++ bigBytes 2 8 ++
      (bigBytes 2 port.toNat ++ bigBytes 2 maxlen.toNat) ++ rest) post) :
    ∃ r, rewriteAt host slack p.number c = some r ∧ r.size = 8 ∧
      r.out = atOutput port.toNat maxlen.toNat := by
  have header : c.header slack = bigBytes 2 OFPAT.output ++ bigBytes 2 8 :=
    h.header_eq slack (by simp only [List.length_append, length_bigBytes]; omega)
  have value : fetch slack c.buf (c.iter + 4) 4 =
      bigBytes 2 port.toNat ++ bigBytes 2 maxlen.toNat :=
    h.fetch_eq slack (by simp only [List.length_append, length_bigBytes]; omega)
  have output : enumType (c.header slack) = OFPAT.output := by rw [header]; rfl
  have eight : actionLength (c.header slack) = 8 := by rw [header]; rfl
  refine ⟨outputRewrite (fetch slack c.buf (c.iter + 4) 4), ?_, rfl, ?_⟩
  · rw [rewriteAt, if_pos output, if_pos eight]
  · have first : big16 (fetch slack c.buf (c.iter + 4) 4) 0 = port.toNat % 65536 := by
      rw [value, big16_append _ (by simp), big16_bigBytes]
    have second : big16 (fetch slack c.buf (c.iter + 4) 4) 2 = maxlen.toNat := by
      rw [value]
      exact (big16_bigBytes _).trans (Nat.mod_eq_of_lt maxlen.isLt)
    rw [outputRewrite, first, second, normPortNumberV1_narrow port narrow]

private theorem rewriteAt_setField {f : OxmField} {value pad : Bytes} {code : Nat}
    (old : Header.version c.buf = 1) (whole : value.length = f.size) (small : code ≤ 11)
    (field : setFieldOf (schemaType 1 code) p.number = some f)
    (h : Spans c pre (bigBytes 2 code ++ bigBytes 2 (padLength (4 + f.size)) ++
      (value ++ pad) ++ rest) post) :
    ∃ r, rewriteAt host slack p.number c = some r ∧ r.size = padLength (4 + f.size) ∧
      r.out = atSetField f (throughNative host f value) := by
  have narrow := f.size_le
  have header : c.header slack = bigBytes 2 code ++ bigBytes 2 (padLength (4 + f.size)) := by
    rw [h.header_eq slack (by simp only [List.length_append, length_bigBytes]; omega),
      List.append_assoc, List.take_left' (by simp)]
  have content : fetch slack c.buf (c.iter + 4) f.size = value := by
    rw [h.fetch_eq slack (by simp only [List.length_append, length_bigBytes, whole]; omega),
      List.append_assoc, List.drop_left' (by simp), List.append_assoc, List.take_left' whole]
  have type : enumType (c.header slack) = code := by
    rw [header, ← List.append_nil (_ ++ _), enumType_header]
    omega
  have size : actionLength (c.header slack) = padLength (4 + f.size) := by
    rw [header, ← List.append_nil (_ ++ _), actionLength_header]
    unfold padLength
    omega
  have sets : fieldAt slack p.number c = some f := by
    rw [fieldAt, fieldOf, old, type, if_pos (.inl small), field]
  have rewrites : Rewrites f (actionLength (c.header slack)) := by
    rw [size]
    unfold Rewrites padLength
    omega
  refine ⟨_, rewriteAt_of_field host sets rewrites, size, ?_⟩
  simp only [setFieldRewrite, content, atSetField]

private theorem rewriteAt_writeV1 (a : Action p) (old : Header.version c.buf = 1)
    (h : Spans c pre (writeV1 a.encode ++ rest) post) :
    ∃ r, rewriteAt host slack p.number c = some r ∧ 4 ≤ r.size ∧
      r.size = (writeV1 a.encode).length ∧ r.out = a.decoded host := by
  cases a with
  | output port maxlen narrow =>
    rw [Action.encode, writeV1_atOutput] at h ⊢
    obtain ⟨r, found, size, out⟩ := rewriteAt_output host slack port maxlen narrow h
    exact ⟨r, found, by omega, size, out⟩
  | setField f value whole allowed =>
    obtain ⟨code, known, small, field⟩ := codeV1_of_sets allowed
    rw [Action.encode, writeV1_atSetField whole known] at h ⊢
    obtain ⟨r, found, size, out⟩ := rewriteAt_setField host slack old whole small field h
    have long := le_padLength (4 + f.size)
    refine ⟨r, found, by omega, ?_, out⟩
    simp only [size, List.length_append, length_bigBytes, List.length_replicate, whole]
    omega

private theorem turn_writeV1 (a : Action p) {front : Bytes}
    (h : Spans c (1 :: front) (writeV1 a.encode ++ rest) post) :
    ∃ c', c.more = true ∧ normTurn host slack p.number c = .done c' ∧
      Spans c' (1 :: (front ++ a.decoded host)) rest post := by
  have old : Header.version c.buf = 1 := by rw [h.buf]; rfl
  obtain ⟨r, found, long, size, out⟩ := rewriteAt_writeV1 host slack a old h
  have total := h.length
  rw [List.length_append] at total
  refine ⟨ActionTurns.replaced slack c r, ?_, ?_, ?_⟩
  · have position := h.iter
    have last := h.iterEnd
    rw [List.length_append] at last
    simp only [Cursor.more, decide_eq_true_eq]
    omega
  · rw [normTurn_replace host slack p.number c found, if_pos (by omega)]
  · have next := h.replaced slack (r := r) (by omega) (by rw [List.length_append]; omega)
    rwa [out, size, List.drop_left] at next

private theorem settles_written (acts : List (Action p)) : ∀ {c : Cursor} {front : Bytes},
    Spans c (1 :: front) (acts.flatMap fun a => writeV1 a.encode) post →
    ∃ d, Settles (fun fuel => normActionsV1orV2 host slack fuel p.number c) (.done d) ∧
      d.buf = 1 :: front ++ acts.flatMap (Action.decoded host) ++ post := by
  induction acts with
  | nil =>
    intro c front h
    have done : c.more = false := by
      have position := h.iter
      have last := h.iterEnd
      simp only [List.flatMap_nil, List.length_nil] at last
      simp only [Cursor.more, decide_eq_false_iff_not]
      omega
    refine ⟨c, ?_, h.buf⟩
    refine ⟨by simp, 0, fun m _ => ?_⟩
    cases m <;> simp [normActionsV1orV2, whileLoop, done]
  | cons a acts ih =>
    intro c front h
    obtain ⟨c', more, turn, h'⟩ := turn_writeV1 host slack a h
    obtain ⟨d, settled, buf⟩ := ih h'
    refine ⟨d, settles_whileLoop_step more turn settled, ?_⟩
    rw [buf]
    simp

end

section

variable {p : Proto} (host : Host)

private theorem flatMap_eq_flatMap_iff {α β : Type} {f g : α → List β}
    (same : ∀ a, (f a).length = (g a).length) (l : List α) :
    l.flatMap f = l.flatMap g ↔ ∀ a ∈ l, f a = g a := by
  induction l with
  | nil => simp
  | cons a l ih =>
    rw [List.flatMap_cons, List.flatMap_cons, List.forall_mem_cons, ← ih]
    constructor
    · intro equal
      exact List.append_inj equal (same a)
    · rintro ⟨first, others⟩
      rw [first, others]

private theorem atSetField_inj (f : OxmField) {v w : Bytes} (same : v.length = w.length) :
    atSetField f v = atSetField f w ↔ v = w := by
  constructor
  · intro equal
    simp only [atSetField, pad8, oxmEntry, List.append_assoc, List.append_cancel_left_eq] at equal
    exact List.append_inj_left equal same
  · rintro rfl
    rfl

private theorem integer_of_sets {f : OxmField} (allowed : p.sets f = true) :
    if isPort f then f.kind = .integer ∧ f.size = 2
    else f.kind = .integer → f.size = 1 := by
  cases f <;> cases p <;> first | exact absurd allowed (by decide) | decide

private theorem reverse_pair_iff {v : Bytes} (two : v.length = 2) :
    v.reverse = v ↔ ∃ x, v = [x, x] := by
  obtain ⟨x, y, rfl⟩ := List.length_eq_two.mp two
  grind

private theorem throughNative_eq_iff {f : OxmField} (allowed : p.sets f = true) {v : Bytes}
    (whole : v.length = f.size) :
    throughNative host f v = v ↔ host = .big ∨ (isPort f = true → ∃ x, v = [x, x]) := by
  have integer := integer_of_sets allowed
  cases host with
  | big => simp [throughNative]
  | little =>
    by_cases port : isPort f = true
    · rw [if_pos port] at integer
      simp only [throughNative, integer.1, port, reduceCtorEq, false_or, forall_const]
      exact reverse_pair_iff (whole.trans integer.2)
    · rw [if_neg port] at integer
      refine iff_of_true ?_ (.inr fun claimed => absurd claimed port)
      unfold throughNative
      split
      · rename_i kind _
        obtain ⟨x, rfl⟩ := List.length_eq_one_iff.mp (whole.trans (integer kind))
        rfl
      · rfl

private theorem decoded_eq_iff (a : Action p) :
    a.decoded host = a.encode ↔ host = .big ∨ a.Symmetric := by
  cases a with
  | output port maxlen _ => simp [Action.decoded, Action.encode, Action.Symmetric]
  | setField f value whole allowed =>
    rw [Action.decoded, Action.encode, atSetField_inj f (length_throughNative ..),
      throughNative_eq_iff host allowed whole]
    rfl

end

/-- Written to a version 1 channel and normalised again, a list of actions comes back as it
was exactly when the host is big-endian or every port number reads the same in both byte
orders. The loop ends in any case. -/
theorem roundTrip_iff (host : Host) (slack : Slack) (p : Proto) (acts : List (Action p))
    (front post : Bytes) :
    ∃ c, Settles (fun fuel => normActionsV1orV2 host slack fuel p.number
          ⟨1 :: front ++ write 1 (encodeAll acts) ++ post, (1 :: front).length,
            (1 :: front).length + (write 1 (encodeAll acts)).length, 0, []⟩) (.done c) ∧
      (c.buf = 1 :: front ++ encodeAll acts ++ post ↔
        host = .big ∨ ∀ a ∈ acts, a.Symmetric) := by
  have spans : Spans ⟨1 :: front ++ write 1 (encodeAll acts) ++ post, (1 :: front).length,
      (1 :: front).length + (write 1 (encodeAll acts)).length, 0, []⟩ (1 :: front)
      (acts.flatMap fun a => writeV1 a.encode) post := by
    rw [write_encodeAll]
    exact ⟨rfl, rfl, rfl⟩
  obtain ⟨c, settled, buf⟩ := settles_written host slack acts spans
  refine ⟨c, settled, ?_⟩
  have pieces : acts.flatMap (Action.decoded host) = encodeAll acts ↔
      ∀ a ∈ acts, a.decoded host = a.encode :=
    flatMap_eq_flatMap_iff (fun a => (length_decoded host a).trans (length_encode a).symm) acts
  rw [buf, List.append_cancel_right_eq, List.append_cancel_left_eq, pieces]
  simp only [decoded_eq_iff]
  by_cases big : host = .big <;> simp [big]

/-- TCP source port 80 comes back as port 20480 on a little-endian host. -/
theorem tcp_port_swapped :
    (normActionsV1orV2 .little (fun _ _ => 0) 2 Proto.tcp.number
        ⟨1 :: write 1 (atSetField .tcpSrc [0x00, 0x50]), 1, 9, 0, []⟩).map Cursor.buf =
      .done (1 :: atSetField .tcpSrc [0x50, 0x00]) ∧
    atSetField .tcpSrc [0x50, 0x00] ≠ atSetField .tcpSrc [0x00, 0x50] := by
  decide +kernel

end Libofp.Normalize.ActionRoundTrip
