/- GID: Libofp/Oxm/FieldList
   digest: OXM lists as the fields added to them, their bytes, and the constraints that
     they express. -/

import Libofp.Base.Run
import Libofp.Oxm.Field
import Libofp.Oxm.Range

set_option autoImplicit false

namespace Libofp.Oxm.FieldList

open Octets.ByteRange Octets.BigEndian Oxm.Field Oxm.Range

/-- One field of an `OXMList`, with a mask or without. -/
structure Entry where
  field : OxmField
  value : BitVec (8 * field.size)
  mask : Option (BitVec (8 * field.size))
  deriving DecidableEq, Repr

/-- `list.add(T{value})`. -/
def plain (f : OxmField) (value : BitVec (8 * f.size)) : Entry := ⟨f, value, none⟩

/-- `list.add(T{value}, T{mask})`: only the bits in the mask are stored. -/
def masked (f : OxmField) (value mask : BitVec (8 * f.size)) : Entry :=
  ⟨f, value &&& mask, some mask⟩

structure Constraint where
  field : OxmField
  value : BitVec (8 * field.size)
  mask : BitVec (8 * field.size)
  deriving DecidableEq, Repr

namespace Entry

def constraint (e : Entry) : Constraint :=
  ⟨e.field, e.value, e.mask.getD (BitVec.allOnes _)⟩

def payload (e : Entry) : Bytes :=
  bigBytes e.field.size e.value.toNat ++
    match e.mask with
    | none => []
    | some mask => bigBytes e.field.size mask.toNat

def item (e : Entry) : Item where
  type := if e.mask.isSome then e.field.typeWithMask else e.field.type
  payload := e.payload

def encode (e : Entry) : Bytes := bigBytes 4 e.item.type ++ e.payload

end Entry

/-- The memory of an `OXMList`. -/
def encodeAll (list : List Entry) : Bytes := list.flatMap Entry.encode

theorem length_payload (e : Entry) : e.payload.length = e.item.type % 256 := by
  have small := e.field.size_le
  obtain ⟨f, value, mask⟩ := e
  cases mask <;>
    simp [Entry.payload, Entry.item, OxmField.type, OxmField.typeWithMask] at small ⊢ <;> omega

private theorem type_item_lt (e : Entry) : e.item.type < 2 ^ 32 := by
  unfold Entry.item
  split
  · exact e.field.typeWithMask_lt
  · exact e.field.type_lt

private theorem itemsLoop_turns {turns turns' : Nat} {data : Bytes} (enough : data.length ≤ turns)
    (enough' : data.length ≤ turns') : itemsLoop turns data = itemsLoop turns' data := by
  refine Base.Run.loop_eq_of_length_le (fun n m => ?_) (fun n m data nonempty ih => ?_) enough
    enough'
  · cases n <;> cases m <;> rfl
  · have ahead := List.length_pos_of_ne_nil nonempty
    rw [itemsLoop, itemsLoop, ih _ (by rw [List.length_drop, fieldSize]; omega)]

theorem items_cons {data : Bytes} (nonempty : data ≠ []) :
    items data = ⟨big32 data 0, (data.drop 4).take (big8 data 3)⟩ ::
      items (data.drop (fieldSize data)) := by
  have positive := List.length_pos_iff.mpr nonempty
  have shrinks : (data.drop (fieldSize data)).length ≤ data.length - 4 := by
    rw [List.length_drop, fieldSize]
    omega
  obtain ⟨turns, size⟩ := Nat.exists_eq_add_of_lt positive
  rw [items, size, Nat.zero_add, itemsLoop, if_neg (by simpa using nonempty),
    itemsLoop_turns (by omega) (Nat.le_refl _)]
  rfl

theorem items_append {item : Item} (bound : item.type < 2 ^ 32)
    (size : item.payload.length = item.type % 256) (rest : Bytes) :
    items (item.encode ++ rest) = item :: items rest := by
  have nonempty : item.encode ++ rest ≠ [] := by simp [Item.encode, bigBytes]
  have word : big32 (item.encode ++ rest) 0 = item.type := by
    simp [Item.encode, bigBytes, big32, big16, big8]
    omega
  have length : big8 (item.encode ++ rest) 3 = item.payload.length := by
    simp [Item.encode, bigBytes, big8, size]
  have behind : item.encode.length = 4 + item.payload.length := by simp [Item.encode]
  rw [items_cons nonempty, fieldSize, word, length, ← behind, List.drop_left, Item.encode,
    List.append_assoc, List.drop_left' (by simp), List.take_left]

private theorem items_encode_append (e : Entry) (rest : Bytes) :
    items (e.encode ++ rest) = e.item :: items rest :=
  items_append (type_item_lt e) (length_payload e) rest

theorem items_encodeAll (list : List Entry) : items (encodeAll list) = list.map Entry.item := by
  induction list with
  | nil => rfl
  | cons e list ih =>
    rw [encodeAll, List.flatMap_cons, items_encode_append, List.map_cons, ← ih]
    rfl

section

variable {f : OxmField} (value mask : BitVec (8 * f.size))

theorem bigNat_toNat : bigNat (bigBytes f.size value.toNat) = value.toNat := by
  rw [bigNat_bigBytes, Nat.mod_eq_of_lt]
  calc value.toNat < 2 ^ (8 * f.size) := value.isLt
    _ = 256 ^ f.size := by rw [Nat.pow_mul]

@[simp] theorem value_item (m : Option (BitVec (8 * f.size))) :
    (Entry.item ⟨f, value, m⟩).value (8 * f.size) = value := by
  have bytes : 8 * f.size / 8 = f.size := by omega
  rw [Item.value, bytes, Entry.item, Entry.payload, List.take_left' (length_bigBytes ..),
    bigNat_toNat, BitVec.ofNat_toNat, BitVec.setWidth_eq]

@[simp] theorem mask_item : (Entry.item ⟨f, value, some mask⟩).mask (8 * f.size) = mask := by
  have bytes : 8 * f.size / 8 = f.size := by omega
  rw [Item.mask, bytes, Entry.item, Entry.payload, List.drop_left' (length_bigBytes ..),
    List.take_of_length_le (length_bigBytes ..).le, bigNat_toNat, BitVec.ofNat_toNat,
    BitVec.setWidth_eq]

end

end Libofp.Oxm.FieldList
