/- GID: Libofp/Match/Builder
   digest: The match builder: fields are added to an OXM list together with their
     prerequisites, and the list is validated. -/

import Libofp.Octets.ByteList
import Libofp.Oxm.Prerequisites

set_option autoImplicit false

namespace Libofp.Match.Builder

open Octets Octets.ByteRange Oxm.Range Oxm.FieldTable Oxm.Prerequisites

/-- A `ValueType value`: a known field that is not an experimenter's, with `sizeof(value)`
bytes. -/
@[ext] structure Field where
  id : InternalId
  value : Bytes
  sized : value.length = id.size
  regular : id.isExperimenter = false
  deriving DecidableEq, Repr

def Field.item (field : Field) : Item := ⟨field.id.type, field.value⟩

/-- `MatchBuilder::add(value)`. `none` means that an assertion fires. -/
def add (list : List Item) (field : Field) : Option (List Item) :=
  let list := insertAll list field.id.prerequisites
  (substitute list field.id.type field.value).map fun
    | .done list => list
    | .absent => list ++ [field.item]

/-- `MatchBuilder::replaceUnchecked(value)`: the value is copied over the one of the first
item with the same type, or added at the end. -/
def replaceUnchecked : List Item → Field → List Item
  | [], field => [field.item]
  | item :: list, field =>
    if item.type = field.id.type then
      let offset := if item.isExperimenter then 4 else 0
      { item with payload := ByteList.poke item.payload offset field.value } :: list
    else item :: replaceUnchecked list field

/-- A sequence of `add` calls on an empty builder. -/
def build (fields : List Field) : Option (List Item) := fields.foldlM add []

/-- `list_.toRange()`. -/
def toRange (list : List Item) : Bytes := list.flatMap Item.encode

def validate (list : List Item) : Bool := (checkAll (toRange list)).isOk

/-- `validate()` after the calls; `none` when an assertion has fired. -/
def validated (fields : List Field) : Option Bool := (build fields).map validate

end Libofp.Match.Builder
