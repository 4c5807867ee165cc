/- GID: Libofp/Queues/QueueElements
   digest: A queue in memory whose length field spans its properties, and what validity says about
     any bytes. -/

import Libofp.Queues.QueueRange

set_option autoImplicit false

namespace Libofp.Queues.QueueElements

open Octets.ByteRange Octets.ByteList Octets.BigEndian
open Wire.ProtocolRange Wire.PaddedElements QueueRange

variable {p : Property} {q : Queue} {len : Nat}

def packedSize (q : Queue) : Nat := (q.properties.map (·.bytes.length)).sum

def paddedSize (q : Queue) : Nat := (q.properties.map fun p => padLength p.bytes.length).sum

theorem length_padded (p : Property) : p.padded.length = padLength p.bytes.length := by
  have bound := le_padLength p.bytes.length
  rw [Property.padded, List.length_append, List.length_replicate]
  omega

theorem length_propertyList (q : Queue) : (propertyList q.properties).length = paddedSize q := by
  rw [propertyList, List.length_flatten, List.map_map, paddedSize]
  exact congrArg List.sum (List.map_congr_left fun p _ => length_padded p)

theorem packedSize_le (q : Queue) : packedSize q ≤ paddedSize q :=
  (Actions.WriteSize.sum_eq_iff_of_le fun p _ => le_padLength p.bytes.length).1

theorem paddedSize_mod (q : Queue) : paddedSize q % 8 = 0 := by
  rw [paddedSize]
  induction q.properties with
  | nil => rfl
  | cons p ps ih =>
    rw [List.map_cons, List.sum_cons, padLength]
    omega

theorem size_padded (p : Property) : big16 p.padded 2 = p.bytes.length := by
  have least := p.least
  rw [Property.padded, big16_append _ (by omega), p.sized]

theorem isElement_padded (p : Property) : IsElement 4 2 p.padded where
  least := by
    have least := p.least
    rw [size_padded]
    omega
  whole := by rw [size_padded, length_padded]

private theorem content_padded (p : Property) :
    p.padded.take (propertySize p.padded) = p.bytes := by
  rw [propertySize, size_padded, Property.padded, List.take_left]

private theorem type_padded (p : Property) : big16 p.padded 0 = p.type := by
  have least := p.least
  rw [Property.padded, big16_append _ (by omega), Property.type]

theorem items_propertyList (properties : List Property) :
    propertyLayout.items (propertyList properties) = properties.map Property.padded := by
  refine items_flatten fun e member => ?_
  obtain ⟨p, -, rfl⟩ := List.mem_map.mp member
  exact (isElement_padded p).spans (by decide)

theorem contents_propertyList (properties : List Property) :
    (propertyLayout.items (propertyList properties)).map
      (fun property => property.take (propertySize property)) =
        properties.map Property.bytes := by
  rw [items_propertyList, List.map_map]
  exact List.map_congr_left fun p _ => content_padded p

private theorem accepts_propertyList (properties : List Property) :
    propertyLayout.Accepts (propertyList properties) := by
  refine accepts_flatten (by decide) (by decide) fun e member => ?_
  obtain ⟨p, -, rfl⟩ := List.mem_map.mp member
  exact isElement_padded p

section

variable {rest : Bytes}

@[simp]
theorem length_queueHeader (q : Queue) (len : Nat) : (queueHeader q len).length = 16 := by
  simp [queueHeader]

theorem len_queueHeader (q : Queue) (fits : len < 65536) (rest : Bytes) :
    big16 (queueHeader q len ++ rest) 8 = len := by
  simp [queueHeader, big16, big8, bigBytes]
  omega

private theorem queueId_queueHeader (q : Queue) (rest : Bytes) :
    big32 (queueHeader q len ++ rest) 0 = q.queueId.toNat := by
  rw [big32, big16_append rest (by simp), big16_append rest (by simp)]
  simp [queueHeader, big16, big8, bigBytes]
  omega

private theorem port_queueHeader (q : Queue) (rest : Bytes) :
    big32 (queueHeader q len ++ rest) 4 = q.port.toNat := by
  rw [big32, big16_append rest (by simp), big16_append rest (by simp)]
  simp [queueHeader, big16, big8, bigBytes]
  omega

private theorem poke_queueHeader (q : Queue) (len' : Nat) :
    poke (queueHeader q len) 8 (bigBytes 2 len') = queueHeader q len' := by
  simp [poke, Octets.ByteList.replace, queueHeader, bigBytes]

end

def queueOf (q : Queue) (len : Nat) : Bytes := queueHeader q len ++ propertyList q.properties

structure Spanned (q : Queue) (len : Nat) : Prop where
  fits : len < 65536
  whole : padLength len = 16 + paddedSize q
  least : 16 ≤ len

theorem length_queueOf (q : Queue) (len : Nat) : (queueOf q len).length = 16 + paddedSize q := by
  rw [queueOf, List.length_append, length_queueHeader, length_propertyList]

theorem isElement_queueOf (spanned : Spanned q len) : IsElement 16 8 (queueOf q len) where
  least := by
    rw [queueOf, len_queueHeader q spanned.fits]
    exact spanned.least
  whole := by rw [length_queueOf, queueOf, len_queueHeader q spanned.fits, spanned.whole]

theorem queueProperties_queueOf (spanned : Spanned q len) :
    queueProperties (queueOf q len) = propertyList q.properties := by
  have length := length_queueOf q len
  rw [queueProperties, safeByteRange_eq_drop, queueOf, len_queueHeader q spanned.fits,
    spanned.whole, ← queueOf, ← length, List.take_length, queueOf]
  exact List.drop_left' (length_queueHeader q len)

def view (q : Queue) : Nat × Nat × List Bytes :=
  (q.queueId.toNat, q.port.toNat, q.properties.map Property.bytes)

theorem readQueue_queueOf (spanned : Spanned q len) : readQueue (queueOf q len) = view q := by
  rw [readQueue, queueProperties_queueOf spanned, contents_propertyList, queueOf,
    queueId_queueHeader, port_queueHeader, view]

theorem queueSize_queueOf (spanned : Spanned q len) :
    queueSize (queueOf q len) = 16 + packedSize q := by
  rw [queueSize, queueProperties_queueOf spanned, items_propertyList, List.map_map, packedSize]
  exact congrArg (fun sizes => 16 + List.sum sizes) (List.map_congr_left fun p _ => size_padded p)

def packed (q : Queue) : Bytes :=
  queueHeader q (16 + packedSize q) ++ (q.properties.map Property.bytes).flatten

theorem writePacked_queueOf (spanned : Spanned q len) :
    writePacked (queueOf q len) = packed q := by
  have head : (queueOf q len).take 16 = queueHeader q len :=
    List.take_left' (length_queueHeader q len)
  rw [writePacked, queueSize_queueOf spanned, queueProperties_queueOf spanned,
    contents_propertyList, head, poke_queueHeader, packed]

def ExperimentersWhole (q : Queue) : Prop :=
  ∀ p ∈ q.properties, p.type = qtExperimenter → 16 ≤ p.bytes.length

private theorem validateQueueProperties_iff :
    validateQueueProperties (propertyList q.properties) = true ↔ ExperimentersWhole q := by
  rw [validateQueueProperties, items_propertyList, List.all_map, List.all_eq_true,
    ExperimentersWhole]
  refine forall₂_congr fun p _ => ?_
  rw [Function.comp_apply, type_padded, propertySize, size_padded]
  by_cases experimenter : p.type = qtExperimenter
  · simp [experimenter]
  · simp [experimenter]

theorem validateQueue_queueOf (spanned : Spanned q len) {address : Nat} (aligned : address % 8 = 0)
    (whole : ExperimentersWhole q) : validateQueue address (queueOf q len) = true := by
  have least : ¬ big16 (queueOf q len) 8 < 16 := Nat.not_lt.mpr (isElement_queueOf spanned).least
  have accepts : propertyLayout.checkLoop (propertyList q.properties).length
      (propertyList q.properties) = true := accepts_propertyList q.properties
  have units : (propertyList q.properties).length % 8 = 0 := by
    rw [length_propertyList, paddedSize_mod]
  rw [validateQueue, if_neg least, queueProperties_queueOf spanned,
    validateQueueProperties_iff.mpr whole, Bool.and_true]
  simp only [ElementLayout.isProtocolRangeValid, propertyLayout, padded] at accepts ⊢
  simp [accepts, units, Nat.add_mod, aligned]

section

variable {address : Nat} {data queue : Bytes}

theorem accepts_of_valid {size offset : Nat}
    (valid : (padded size offset).isProtocolRangeValid address data = true) :
    (padded size offset).Accepts data := by
  simp only [ElementLayout.isProtocolRangeValid, padded, Bool.and_eq_true] at valid
  exact valid.2

theorem length_of_valid (element : IsElement 16 8 queue)
    (valid : validateQueue address queue = true) :
    queue.length = 16 + ((readQueue queue).2.2.map fun c => padLength c.length).sum ∧
      ∀ c ∈ (readQueue queue).2.2, big16 c 0 = qtExperimenter → 16 ≤ c.length := by
  have least := element.least
  have bound := le_padLength (big16 queue 8)
  have length := element.whole
  rw [validateQueue, if_neg (Nat.not_lt.mpr least), Bool.and_eq_true] at valid
  obtain ⟨elements, whole⟩ := elements_of_accepts (by decide) (accepts_of_valid valid.1)
  -- The content of a property says how much room it takes.
  have room (e : Bytes) (member : e ∈ propertyLayout.items (queueProperties queue)) :
      (e.take (propertySize e)).length = propertySize e ∧
        e.length = padLength (propertySize e) := by
    have element := elements e member
    have inside := le_padLength (propertySize e)
    have size : e.length = padLength (propertySize e) := element.whole
    rw [List.length_take]
    omega
  constructor
  · have properties : (queueProperties queue).length = queue.length - 16 := by
      rw [queueProperties, safeByteRange_eq_drop, ← length, List.take_length, List.length_drop]
    have sum : (queueProperties queue).length =
        ((readQueue queue).2.2.map fun c => padLength c.length).sum := by
      rw [← whole, List.length_flatten, readQueue, List.map_map]
      refine congrArg List.sum (List.map_congr_left fun e member => ?_)
      rw [Function.comp_apply, (room e member).1, (room e member).2]
    omega
  · intro c member experimenter
    obtain ⟨e, inside, rfl⟩ := List.mem_map.mp member
    have four : 4 ≤ propertySize e := (elements e inside).least
    have checked := List.all_eq_true.mp valid.2 e inside
    rw [big16_take (by omega)] at experimenter
    rw [(room e inside).1]
    simpa [experimenter] using checked

end

end Libofp.Queues.QueueElements
