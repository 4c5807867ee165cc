/- GID: Libofp/Oxm/Range
   digest: Lists of OXM fields in message bytes and the validation of them. -/

import Libofp.Octets.BigEndian

set_option autoImplicit false

namespace Libofp.Oxm.Range

open Octets.ByteRange Octets.BigEndian

namespace OXMType

def length (type : Nat) : Nat := type % 256

def hasMask (type : Nat) : Bool := type / 256 % 2 == 1

def isIllegal (type : Nat) : Bool := hasMask type && length type == 0

def isExperimenter (type : Nat) : Bool := type / 65536 == 0xffff

/-- The type with the mask bit and twice the length. No experimenter's type is asked here. -/
def withMask (type : Nat) : Nat :=
  if hasMask type then type else type / 512 * 512 + (256 ||| length type * 2)

def withoutMask (type : Nat) : Nat :=
  if hasMask type then type / 512 * 512 + length type / 2 else type

end OXMType

def fieldSize (data : Bytes) : Nat := 4 + big8 data 3

/-- `while (pos < end_)`. A turn consumes at least four bytes, so as many turns as bytes
are enough. -/
def validateLoop : Nat → Bytes → Bool
  | 0, data => data.isEmpty
  | turns + 1, data =>
    if data.isEmpty then true
    else if data.length < 4 then false
    else if data.length < fieldSize data then false
    else validateLoop turns (data.drop (fieldSize data))

def validateInput (range : Bytes) : Bool := validateLoop range.length range

/-- `OXMIterator::Item`: the type word and the bytes behind it. -/
structure Item where
  type : Nat
  payload : Bytes
  deriving DecidableEq, Repr

/-- `item.value<Type>()` as a number of the width that the type has. -/
def Item.value (item : Item) (w : Nat) : BitVec w :=
  BitVec.ofNat w (bigNat (item.payload.take (w / 8)))

/-- `item.mask<Type>()`. -/
def Item.mask (item : Item) (w : Nat) : BitVec w :=
  BitVec.ofNat w (bigNat ((item.payload.drop (w / 8)).take (w / 8)))

namespace Item

def isExperimenter (item : Item) : Bool :=
  OXMType.isExperimenter item.type && 4 ≤ OXMType.length item.type

def experimenter (item : Item) : Nat :=
  if item.isExperimenter then big32 item.payload 0 else 0

/-- The bytes at `unknownValuePtr()`. -/
def unknownValue (item : Item) : Bytes :=
  if item.isExperimenter then item.payload.drop 4 else item.payload

/-- The bytes of the item in an `OXMList`. -/
def encode (item : Item) : Bytes := bigBytes 4 item.type ++ item.payload

end Item

/-- `for (auto &item : range)`. -/
def itemsLoop : Nat → Bytes → List Item
  | 0, _ => []
  | turns + 1, data =>
    if data.isEmpty then []
    else
      ⟨big32 data 0, (data.drop 4).take (big8 data 3)⟩ ::
        itemsLoop turns (data.drop (fieldSize data))

def items (range : Bytes) : List Item := itemsLoop range.length range

/-- `OXMRange::get`: the value of the first field of a type, or zero. -/
def get (range : Bytes) (type w : Nat) : BitVec w :=
  match (items range).find? (·.type == type) with
  | some item => item.value w
  | none => 0

end Libofp.Oxm.Range
