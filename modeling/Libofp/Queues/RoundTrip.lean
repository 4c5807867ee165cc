/- GID: Libofp/Queues/RoundTrip
   digest: Queue configurations written for versions 3 and 4 and normalized again: which of them
     survive. -/

import Libofp.Normalize.Queues
import Libofp.Queues.QueueElements
import Mathlib.Algebra.Order.BigOperators.Group.List
import Mathlib.Data.List.Induction

set_option autoImplicit false

namespace Libofp.Queues.RoundTrip

open Octets.ByteRange Octets.ByteList Octets.BigEndian
open Base.Iteration Wire.ProtocolRange Wire.PaddedElements Messages Messages.Builders
open QueueRange QueueElements Normalize.Queues

section

variable {qs : List Queue} {version xid : Nat} {port : BitVec 32}

def totalSize (qs : List Queue) : Nat := (qs.map fun q => 16 + paddedSize q).sum

def Fits (qs : List Queue) : Prop := 16 + totalSize qs ≤ 65535

theorem size_lt_of_fits (fits : Fits qs) {q : Queue} (member : q ∈ qs) :
    16 + paddedSize q < 65536 := by
  have single : 16 + paddedSize q ≤ totalSize qs :=
    List.single_le_sum (by simp) _ (List.mem_map.mpr ⟨q, member, rfl⟩)
  rw [Fits] at fits
  omega

theorem spanned_padded (fits : Fits qs) {q : Queue} (member : q ∈ qs) :
    Spanned q (16 + paddedSize q) where
  fits := size_lt_of_fits fits member
  whole := padLength_of_mod (by have units := paddedSize_mod q; omega)
  least := Nat.le_add_right ..

theorem bytes_eq (q : Queue) : q.bytes = queueOf q (16 + paddedSize q) := by
  rw [Queue.bytes, length_propertyList, queueOf]

theorem items_queueList (fits : Fits qs) :
    queueLayout.items (queueList qs) = qs.map Queue.bytes := by
  refine items_flatten fun e member => ?_
  obtain ⟨q, inside, rfl⟩ := List.mem_map.mp member
  rw [bytes_eq]
  exact (isElement_queueOf (spanned_padded fits inside)).spans (by decide)

def packedList (qs : List Queue) : Bytes := (qs.map packed).flatten

private theorem write_queueList (fits : Fits qs) (recent : version = 3 ∨ version = 4) :
    write version (queueList qs) = packedList qs := by
  rw [write, if_neg (by omega), if_pos (by omega), items_queueList fits, List.map_map, packedList]
  refine congrArg List.flatten (List.map_congr_left fun q member => ?_)
  rw [Function.comp_apply, bytes_eq, writePacked_queueOf (spanned_padded fits member)]

theorem length_packed (q : Queue) : (packed q).length = 16 + packedSize q := by
  rw [packed, List.length_append, length_queueHeader, List.length_flatten, List.map_map,
    packedSize]
  rfl

theorem length_packedList (qs : List Queue) :
    (packedList qs).length = (qs.map fun q => 16 + packedSize q).sum := by
  rw [packedList, List.length_flatten, List.map_map]
  exact congrArg List.sum (List.map_congr_left fun q _ => length_packed q)

private theorem length_packedList_le (qs : List Queue) : (packedList qs).length ≤ totalSize qs := by
  rw [length_packedList]
  refine (Actions.WriteSize.sum_eq_iff_of_le fun q _ => ?_).1
  have smaller := packedSize_le q
  omega

private theorem writeSize_queueList (fits : Fits qs) (recent : version = 3 ∨ version = 4) :
    writeSize version (queueList qs) = (packedList qs).length := by
  rw [writeSize, if_neg (by omega), if_pos (by omega), items_queueList fits, List.map_map,
    length_packedList]
  refine congrArg List.sum (List.map_congr_left fun q member => ?_)
  rw [Function.comp_apply, bytes_eq, queueSize_queueOf (spanned_padded fits member)]

private theorem exists_head (fits : Fits qs) (recent : version = 3 ∨ version = 4) :
    ∃ head : Bytes, head.length = 16 ∧
      send version xid port (queueList qs) = head ++ packedList qs ∧
        16 ≤ Header.length (head ++ packedList qs) := by
  have smaller := length_packedList_le qs
  rw [Fits] at fits
  refine ⟨headerBytes version Header.OFPT.queueGetConfigReply (16 + (packedList qs).length) xid ++
    bigBytes 4 port.toNat ++ List.replicate 4 0, ?_, ?_, ?_⟩
  · simp [length_headerBytes]
  · rw [send, if_neg (by omega), writeSize_queueList fits recent, write_queueList fits recent]
  · rw [List.append_assoc, List.append_assoc, length_of_headerBytes _ (by omega)]
    omega

end

section

variable {qs : List Queue} {q : Queue} {out rest : Bytes}

def normalized (q : Queue) : Bytes := queueOf q (16 + packedSize q)

def normalizedList (qs : List Queue) : Bytes := (qs.map normalized).flatten

theorem length_normalizedList (qs : List Queue) :
    (normalizedList qs).length = totalSize qs := by
  rw [normalizedList, List.length_flatten, List.map_map, totalSize]
  exact congrArg List.sum (List.map_congr_left fun q _ => length_queueOf q _)

private theorem totalSize_mod (qs : List Queue) : totalSize qs % 8 = 0 := by
  induction qs with
  | nil => rfl
  | cons q qs ih =>
    have units := paddedSize_mod q
    rw [totalSize] at ih ⊢
    rw [List.map_cons, List.sum_cons]
    omega

private theorem visits_properties (properties : List Property) (out : Bytes) :
    Visits PropertyScan.more (fun _ => propertyTurn)
      ⟨(properties.map Property.bytes).flatten, out, false⟩
      ⟨[], out ++ propertyList properties, false⟩ := by
  induction properties generalizing out with
  | nil =>
    rw [propertyList, List.map_nil, List.map_nil, List.flatten_nil, List.append_nil]
    exact .refl
  | cons p ps ih =>
    have least := p.least
    have size : big16 (p.bytes ++ (ps.map Property.bytes).flatten) 2 = p.bytes.length := by
      rw [big16_append _ (by omega), p.sized]
    have step : propertyTurn ⟨p.bytes ++ (ps.map Property.bytes).flatten, out, false⟩ =
        .done ⟨(ps.map Property.bytes).flatten, out ++ p.padded, false⟩ := by
      have proper : ¬ (p.bytes.length > (p.bytes ++ (ps.map Property.bytes).flatten).length ∨
          p.bytes.length < 4) := by
        rw [List.length_append]
        omega
      simp only [propertyTurn, size, if_neg proper, List.drop_left, List.take_left,
        Property.padded, List.append_assoc]
    have later := ih (out ++ p.padded)
    rw [List.append_assoc] at later
    refine .head ⟨?_, ?_⟩ later
    · simp only [PropertyScan.more, List.map_cons, List.flatten_cons, List.length_append]
      simp
      omega
    · simp only [List.map_cons, List.flatten_cons, step]
      exact settles_const (by simp)

theorem turn_queue (fits : 16 + packedSize q < 65536) (more : 16 < (packed q ++ rest).length)
    (out : Bytes) : Turn QueueScan.more queueTurn ⟨packed q ++ rest, out, false⟩
      ⟨rest, out ++ normalized q, false⟩ := by
  refine ⟨by simpa [QueueScan.more] using more, ?_⟩
  have len : big16 (packed q ++ rest) 8 = 16 + packedSize q := by
    rw [packed, List.append_assoc, len_queueHeader q fits]
  have proper : ¬ (16 + packedSize q > (packed q ++ rest).length ∨ 16 + packedSize q < 16) := by
    rw [List.length_append, length_packed]
    omega
  have header : (packed q ++ rest).take 16 = queueHeader q (16 + packedSize q) := by
    exact List.take_left' (length_queueHeader ..)
  have properties : ((packed q ++ rest).take (16 + packedSize q)).drop 16 =
      (q.properties.map Property.bytes).flatten := by
    rw [List.take_left' (length_packed q), packed]
    exact List.drop_left' (length_queueHeader ..)
  have behind : (packed q ++ rest).drop (16 + packedSize q) = rest :=
    List.drop_left' (length_packed q)
  have loop : Settles (fun fuel => whileLoop PropertyScan.more propertyTurn fuel
      ⟨(q.properties.map Property.bytes).flatten, out ++ queueHeader q (16 + packedSize q), false⟩)
        (.done ⟨[], out ++ normalized q, false⟩) := by
    have visited := visits_properties q.properties (out ++ queueHeader q (16 + packedSize q))
    rw [List.append_assoc] at visited
    exact settles_whileLoop_of_visits visited (by simp [PropertyScan.more])
  have finished := loop.map fun props : PropertyScan =>
    if props.returned ∨ props.left.length ≠ 0 then
      (⟨packed q ++ rest, out, true⟩ : QueueScan) else ⟨rest, props.out, false⟩
  simp only [queueTurn, len, if_neg proper, properties, header, behind]
  simpa using finished

theorem visits_queues (fits : ∀ q ∈ qs, 16 + packedSize q < 65536) (more : 0 < rest.length)
    (out : Bytes) : Visits QueueScan.more queueTurn ⟨packedList qs ++ rest, out, false⟩
      ⟨rest, out ++ normalizedList qs, false⟩ := by
  induction qs generalizing out with
  | nil =>
    rw [packedList, normalizedList, List.map_nil, List.map_nil, List.flatten_nil, List.append_nil,
      List.nil_append]
    exact .refl
  | cons q qs ih =>
    rw [List.forall_mem_cons] at fits
    have later := ih fits.2 (out ++ normalized q)
    have behind : 16 < (packed q ++ (packedList qs ++ rest)).length := by
      rw [List.length_append, List.length_append, length_packed]
      omega
    have step := turn_queue fits.1 behind out
    rw [packedList, normalizedList, List.map_cons, List.map_cons, List.flatten_cons,
      List.flatten_cons, List.append_assoc, ← List.append_assoc out]
    exact .head step later

def EndsEmpty (qs : List Queue) : Prop := ∃ q, qs.getLast? = some q ∧ q.properties = []

theorem normalize_of_left {buf left out : Bytes} (long : 16 ≤ Header.length buf)
    (visited : Visits QueueScan.more queueTurn ⟨safeByteRange buf 16, [], false⟩
      ⟨left, out, false⟩) (stop : left.length ≤ 16) :
    Settles (fun fuel => normalizeQueueGetConfigReplyV2 fuel buf) (.done
      (if left.length ≠ 0 then buf
        else if out.length > 65535 - 16 then Header.markInputTooBig buf
        else replace buf 16 buf.length out)) := by
  have loop := settles_whileLoop_of_visits visited (by simpa [QueueScan.more] using stop)
  have finished := loop.map fun queues : QueueScan =>
    if queues.returned ∨ queues.left.length ≠ 0 then buf
    else if queues.out.length > 65535 - sizeofQueueGetConfigReply then Header.markInputTooBig buf
    else replace buf sizeofQueueGetConfigReply buf.length queues.out
  have entered : ¬ Header.length buf < sizeofQueueGetConfigReply := Nat.not_lt.mpr long
  simp only [normalizeQueueGetConfigReplyV2, if_neg entered]
  simpa [sizeofQueueGetConfigReply] using finished

variable {head : Bytes}

private theorem normalize_of_endsEmpty (whole : head.length = 16)
    (long : 16 ≤ Header.length (head ++ packedList qs))
    (fits : ∀ q ∈ qs, 16 + packedSize q < 65536) (empty : EndsEmpty qs) :
    Settles (fun fuel => normalizeQueueGetConfigReplyV2 fuel (head ++ packedList qs))
      (.done (head ++ packedList qs)) := by
  obtain ⟨q, last, none⟩ := empty
  obtain ⟨front, rfl⟩ := List.getLast?_eq_some_iff.mp last
  have size : (packed q).length = 16 := by
    rw [length_packed, packedSize, none]
    rfl
  have list : packedList (front ++ [q]) = packedList front ++ packed q := by
    simp [packedList]
  have early : ∀ q ∈ front, 16 + packedSize q < 65536 := fun q member =>
    fits q (List.mem_append_left _ member)
  have visited := visits_queues early (show 0 < (packed q).length by omega) []
  have start : safeByteRange (head ++ packedList (front ++ [q])) 16 =
      packedList front ++ packed q := by
    rw [safeByteRange_eq_drop, list]
    exact List.drop_left' whole
  have settled := normalize_of_left long (start ▸ visited) (Nat.le_of_eq size)
  rwa [if_pos (by omega)] at settled

private theorem normalize_of_not_endsEmpty (whole : head.length = 16)
    (long : 16 ≤ Header.length (head ++ packedList qs)) (fits : Fits qs) (full : ¬ EndsEmpty qs) :
    Settles (fun fuel => normalizeQueueGetConfigReplyV2 fuel (head ++ packedList qs))
      (.done (head ++ normalizedList qs)) := by
  have small : ∀ q ∈ qs, 16 + packedSize q < 65536 := fun q member => by
    have bound := size_lt_of_fits fits member
    have smaller := packedSize_le q
    omega
  have start : safeByteRange (head ++ packedList qs) 16 = packedList qs := by
    rw [safeByteRange_eq_drop]
    exact List.drop_left' whole
  have visited : Visits QueueScan.more queueTurn ⟨packedList qs, [], false⟩
      ⟨[], normalizedList qs, false⟩ := by
    cases qs using List.reverseRecOn with
    | nil => exact .refl
    | append_singleton front q =>
      have list : packedList (front ++ [q]) = packedList front ++ packed q := by
        simp [packedList]
      have list' : normalizedList (front ++ [q]) = normalizedList front ++ normalized q := by
        simp [normalizedList]
      have some : 16 < (packed q ++ []).length := by
        obtain ⟨p, ps, split⟩ := List.exists_cons_of_ne_nil fun none =>
          full ⟨q, by simp, none⟩
        have least := p.least
        rw [List.append_nil, length_packed, packedSize, split, List.map_cons, List.sum_cons]
        omega
      have early : ∀ q ∈ front, 16 + packedSize q < 65536 := fun q member =>
        small q (List.mem_append_left _ member)
      have before := visits_queues early
        (show 0 < (packed q).length by rw [List.append_nil] at some; omega) []
      have last := turn_queue (small q (by simp)) some (normalizedList front)
      rw [List.append_nil] at last
      rw [list, list']
      exact before.tail last
  have settled := normalize_of_left long (start ▸ visited) (by simp)
  have size := length_normalizedList qs
  have enough : ¬ (normalizedList qs).length > 65535 - 16 := by
    rw [Fits] at fits
    omega
  have result : replace (head ++ packedList qs) 16 (head ++ packedList qs).length
      (normalizedList qs) = head ++ normalizedList qs := by
    rw [replace, List.take_left' whole, List.drop_length, List.append_nil]
  rwa [if_neg (by simp), if_neg enough, result] at settled

end

section

variable {qs : List Queue} {data : Bytes}

def Survives (qs : List Queue) (data : Bytes) : Prop :=
  validateQueues 16 data = true ∧ (queueLayout.items data).map readQueue = qs.map view

def Even (q : Queue) : Prop := paddedSize q = padLength (packedSize q)

theorem Survives.sizes (survives : Survives qs data) :
    (queueLayout.items data).map List.length = qs.map (fun q => 16 + paddedSize q) := by
  obtain ⟨valid, same⟩ := survives
  rw [validateQueues, Bool.and_eq_true, List.all_eq_true] at valid
  obtain ⟨elements, -⟩ := elements_of_accepts (by decide) (accepts_of_valid valid.1)
  let room (v : Nat × Nat × List Bytes) : Nat := 16 + (v.2.2.map fun c => padLength c.length).sum
  have lengths : (queueLayout.items data).map List.length =
      ((queueLayout.items data).map readQueue).map room := by
    rw [List.map_map]
    exact List.map_congr_left fun queue member =>
      (length_of_valid (elements queue member) (valid.2 queue member)).1
  rw [lengths, same, List.map_map]
  refine List.map_congr_left fun q _ => ?_
  simp [room, view, paddedSize, Function.comp_def]

theorem Survives.experimenters (survives : Survives qs data) : ∀ q ∈ qs, ExperimentersWhole q := by
  obtain ⟨valid, same⟩ := survives
  rw [validateQueues, Bool.and_eq_true, List.all_eq_true] at valid
  obtain ⟨elements, -⟩ := elements_of_accepts (by decide) (accepts_of_valid valid.1)
  intro q member p listed experimenter
  have read : view q ∈ (queueLayout.items data).map readQueue :=
    same ▸ List.mem_map.mpr ⟨q, member, rfl⟩
  obtain ⟨queue, inside, equal⟩ := List.mem_map.mp read
  have checked := (length_of_valid (elements queue inside) (valid.2 queue inside)).2
  rw [equal] at checked
  exact checked p.bytes (List.mem_map.mpr ⟨p, listed, rfl⟩) experimenter

theorem Survives.flatten (survives : Survives qs data) :
    (queueLayout.items data).flatten = data := by
  have valid := survives.1
  rw [validateQueues, Bool.and_eq_true] at valid
  exact (elements_of_accepts (by decide) (accepts_of_valid valid.1)).2

theorem spanned_of_even (fits : Fits qs) {q : Queue} (member : q ∈ qs) (even : Even q) :
    Spanned q (16 + packedSize q) where
  fits := by
    have bound := size_lt_of_fits fits member
    have smaller := packedSize_le q
    omega
  whole := by
    rw [even, padLength, padLength]
    omega
  least := Nat.le_add_right ..

theorem survives_normalizedList (fits : Fits qs) (whole : ∀ q ∈ qs, ExperimentersWhole q)
    (even : ∀ q ∈ qs, Even q) : Survives qs (normalizedList qs) := by
  have elements : ∀ e ∈ qs.map normalized, IsElement 16 8 e := by
    intro e member
    obtain ⟨q, inside, rfl⟩ := List.mem_map.mp member
    exact isElement_queueOf (spanned_of_even fits inside (even q inside))
  have items : queueLayout.items (normalizedList qs) = qs.map normalized :=
    items_flatten fun e member => (elements e member).spans (by decide)
  constructor
  · have accepts : queueLayout.checkLoop (normalizedList qs).length (normalizedList qs) = true :=
      accepts_flatten (by decide) (by decide) elements
    have units : (normalizedList qs).length % 8 = 0 := by
      rw [length_normalizedList, totalSize_mod]
    have each : (qs.map normalized).all (validateQueue 16) = true := by
      rw [List.all_eq_true]
      intro e member
      obtain ⟨q, inside, rfl⟩ := List.mem_map.mp member
      exact validateQueue_queueOf (spanned_of_even fits inside (even q inside)) rfl
        (whole q inside)
    rw [validateQueues, items, each, Bool.and_true]
    simp only [ElementLayout.isProtocolRangeValid, queueLayout, padded] at accepts ⊢
    simp [accepts, units]
  · rw [items, List.map_map]
    exact List.map_congr_left fun q member =>
      readQueue_queueOf (spanned_of_even fits member (even q member))

private theorem even_of_survives (fits : Fits qs) (survives : Survives qs (normalizedList qs)) :
    ∀ q ∈ qs, Even q := by
  have items : queueLayout.items (normalizedList qs) = qs.map normalized := by
    refine List.eq_iff_flatten_eq.mpr ⟨survives.flatten, ?_⟩
    rw [survives.sizes, List.map_map]
    exact List.map_congr_left fun q _ => (length_queueOf q _).symm
  have valid := survives.1
  rw [validateQueues, Bool.and_eq_true] at valid
  have elements := (elements_of_accepts (by decide) (accepts_of_valid valid.1)).1
  intro q member
  have element : IsElement 16 8 (normalized q) :=
    elements _ (items ▸ List.mem_map.mpr ⟨q, member, rfl⟩)
  have small : 16 + packedSize q < 65536 := by
    have bound := size_lt_of_fits fits member
    have smaller := packedSize_le q
    omega
  have whole := element.whole
  rw [normalized, length_queueOf, queueOf, len_queueHeader q small] at whole
  rw [Even]
  unfold padLength at whole ⊢
  omega

def Unpadded (qs : List Queue) : Prop := ∀ q ∈ qs, ∀ p ∈ q.properties, p.bytes.length % 8 = 0

private theorem unpadded_of_survives (survives : Survives qs (packedList qs)) : Unpadded qs := by
  have total : (qs.map fun q => 16 + packedSize q).sum =
      (qs.map fun q => 16 + paddedSize q).sum := by
    rw [← length_packedList, ← survives.sizes, ← List.length_flatten, survives.flatten]
  have below : ∀ q ∈ qs, 16 + packedSize q ≤ 16 + paddedSize q := fun q _ =>
    Nat.add_le_add_left (packedSize_le q) 16
  have each := ((Actions.WriteSize.sum_eq_iff_of_le below).2).mp total
  intro q member p listed
  have same : packedSize q = paddedSize q := Nat.add_left_cancel (each q member)
  have sizes := ((Actions.WriteSize.sum_eq_iff_of_le
    fun p (_ : p ∈ q.properties) => le_padLength p.bytes.length).2).mp same p listed
  unfold padLength at sizes
  omega

private theorem padded_of_unpadded {p : Property} (units : p.bytes.length % 8 = 0) :
    p.padded = p.bytes := by
  rw [Property.padded, padLength_of_mod units, Nat.sub_self, List.replicate_zero,
    List.append_nil]

private theorem even_of_unpadded (unpadded : Unpadded qs) {q : Queue} (member : q ∈ qs) :
    Even q := by
  have same : paddedSize q = packedSize q := by
    refine congrArg List.sum (List.map_congr_left fun p listed => ?_)
    exact padLength_of_mod (unpadded q member p listed)
  have units := paddedSize_mod q
  rw [Even, ← same, padLength_of_mod units]

private theorem packedList_of_unpadded (unpadded : Unpadded qs) :
    packedList qs = normalizedList qs := by
  refine congrArg List.flatten (List.map_congr_left fun q member => ?_)
  refine congrArg (_ ++ List.flatten ·) (List.map_congr_left fun p listed => ?_)
  exact (padded_of_unpadded (unpadded q member p listed)).symm

end

/-- A queue configuration for version 3 or 4 survives exactly if its experimenter properties are
whole, in each queue padding the properties takes no more room than padding the queue, and
nothing needs padding in case the last queue has no properties. -/
theorem queueConfig_survives_iff (qs : List Queue) (version xid : Nat) (port : BitVec 32)
    (recent : version = 3 ∨ version = 4) (fits : Fits qs) :
    (∃ buf, Settles (fun fuel =>
        normalizeQueueGetConfigReplyV2 fuel (send version xid port (queueList qs))) (.done buf) ∧
      Survives qs (safeByteRange buf 16)) ↔
    (∀ q ∈ qs, ExperimentersWhole q) ∧ (∀ q ∈ qs, Even q) ∧ (EndsEmpty qs → Unpadded qs) := by
  obtain ⟨head, whole, sent, long⟩ : ∃ head : Bytes, head.length = 16 ∧
      send version xid port (queueList qs) = head ++ packedList qs ∧
        16 ≤ Header.length (head ++ packedList qs) := exists_head fits recent
  have tail (list : Bytes) : safeByteRange (head ++ list) 16 = list := by
    rw [safeByteRange_eq_drop]
    exact List.drop_left' whole
  rw [sent]
  by_cases empty : EndsEmpty qs
  · have settles := normalize_of_endsEmpty whole long (fun q member => by
      have bound := size_lt_of_fits fits member
      have smaller := packedSize_le q
      omega) empty
    constructor
    · rintro ⟨buf, settled, survives⟩
      obtain rfl := Outcome.done.inj (settled.unique settles)
      rw [tail] at survives
      have unpadded := unpadded_of_survives survives
      exact ⟨survives.experimenters, fun q => even_of_unpadded unpadded, fun _ => unpadded⟩
    · rintro ⟨experimenters, even, units⟩
      refine ⟨_, settles, ?_⟩
      rw [tail, packedList_of_unpadded (units empty)]
      exact survives_normalizedList fits experimenters even
  · have settles := normalize_of_not_endsEmpty whole long fits empty
    constructor
    · rintro ⟨buf, settled, survives⟩
      obtain rfl := Outcome.done.inj (settled.unique settles)
      rw [tail] at survives
      exact ⟨survives.experimenters, even_of_survives fits survives, fun wrong =>
        absurd wrong empty⟩
    · rintro ⟨experimenters, even, -⟩
      refine ⟨_, settles, ?_⟩
      rw [tail]
      exact survives_normalizedList fits experimenters even

def property12 : Property := ⟨[0, 3, 0, 12, 1, 2, 3, 4, 5, 6, 7, 8], rfl, by decide⟩

theorem queueConfig_survives_property12 :
    let qs : List Queue := [⟨7, 1, [property12]⟩]
    Fits qs ∧
      ((∃ buf, Settles (fun fuel =>
          normalizeQueueGetConfigReplyV2 fuel (send 3 1 1 (queueList qs))) (.done buf) ∧
        Survives qs (safeByteRange buf 16)) ↔
      (∀ q ∈ qs, ExperimentersWhole q) ∧ (∀ q ∈ qs, Even q) ∧ (EndsEmpty qs → Unpadded qs)) := by
  intro qs
  have fits : Fits qs := by
    unfold Fits
    decide
  exact ⟨fits, queueConfig_survives_iff qs 3 1 1 (.inl rfl) fits⟩

def emptyLast : Bytes := send 3 1 1 (queueList [⟨7, 1, [property12]⟩, ⟨8, 1, []⟩])

def bothPadded : Bytes := send 3 1 1 (queueList [⟨7, 1, [property12, property12]⟩])

/-- The first configuration is left as it was on the wire; the queue of the second gets longer
than its length field says. -/
theorem queueConfig_lost :
    normalizeQueueGetConfigReplyV2 4 emptyLast = .done emptyLast ∧
      validateQueues 16 (safeByteRange emptyLast 16) = false ∧
      normalizeQueueGetConfigReplyV2 4 bothPadded = .done (bothPadded.take 16 ++
        normalized ⟨7, 1, [property12, property12]⟩) ∧
      validateQueues 16 (normalized ⟨7, 1, [property12, property12]⟩) = false := by
  decide +kernel

end Libofp.Queues.RoundTrip
