/- GID: Libofp/Oxm/Prerequisites
   digest: The prerequisites of OXM fields: their insertion into a list, the check and the
     substitution of values for placeholders. -/

import Libofp.Oxm.FieldTable

set_option autoImplicit false

namespace Libofp.Oxm.Prerequisites

open Octets.ByteRange Oxm.Range FieldTable

/-- `OXMType::lookupInfo`: the row of the table, whether or not the type has a mask. -/
def lookupInfo (type : Nat) : Option InternalId :=
  InternalId.all.find? fun id => id.type == OXMType.withoutMask type

/-- `OXMType(0x7FF1, 0, 0).withMask()`. -/
def kMaskedPrereqSignal : Nat := 0x7FF10100

def kValuePrereqSignal : Nat := 0x7FF20100

def kPoisonPrereqSignal : Nat := 0x7FF30100

/-- What `addSignal` and `insertSignal` write. -/
def signal (type : Nat) : Item := ⟨type, []⟩

/-- `matchValueWithMask(length, data, preq)`. The assertion compares the lengths. -/
def matchValueWithMask (value : Bytes) (preq : Item) : Bool :=
  let preqValue := preq.payload.take value.length
  let preqMask := (preq.payload.drop value.length).take value.length
  List.zipWith (· &&& ·) value preqMask == preqValue

def matchMaskWithMask (length : Nat) (pos preq : Item) : Bool :=
  let mask := (pos.payload.drop length).take length
  matchValueWithMask (List.zipWith (· &&& ·) (pos.payload.take length) mask) preq

/-- `memcmp` of the value with as many bytes of `preq`. -/
def matchValueWithValue (value : Bytes) (preq : Item) : Bool :=
  value == preq.unknownValue.take value.length

def matchMaskWithValue (length : Nat) (pos preq : Item) : Bool :=
  (pos.payload.drop length).take length == List.replicate length 0xFF &&
    pos.payload.take length == preq.payload.take length

/-- `checkPreqMasked`: some item of the range meets the value under the mask. -/
def checkPreqMasked (preq : Item) (range : List Item) : Bool :=
  let preqType := OXMType.withoutMask preq.type
  let valueLength := OXMType.length preqType
  range.any fun pos =>
    if pos.type = preqType then matchValueWithMask (pos.payload.take valueLength) preq
    else if pos.type = preq.type then matchMaskWithMask valueLength pos preq
    else false

/-- The part of a prerequisite list that `checkPreqValue` walks: the items of the first one's
type at its front. -/
def front (preqType : Nat) (preqs : List Item) : List Item :=
  preqs.takeWhile fun preq => preq.type == preqType

/-- The comparison of one item with one prerequisite of `preqType`. -/
def matchPreqValue (preqType : Nat) (pos preq : Item) : Bool :=
  let valueLength := OXMType.length preqType
  if pos.type = preqType then matchValueWithValue (pos.payload.take valueLength) preq
  else if pos.type = OXMType.withMask preqType then matchMaskWithValue valueLength pos preq
  else false

/-- `checkPreqValue`: some item of the range has one of the values at the front of `preqs`. -/
def checkPreqValue (preqType : Nat) (preqs range : List Item) : Bool :=
  range.any fun pos => (front preqType preqs).any (matchPreqValue preqType pos)

/-- The out parameter `conflict` after a `checkPreqValue` that returns false: some item has
the type, with a mask or without. -/
def conflict (preqType : Nat) (range : List Item) : Bool :=
  range.any fun pos => pos.type == preqType || pos.type == OXMType.withMask preqType

/-- `advancePreq`: behind the items of the type. -/
def advancePreq (preqType : Nat) (preqs : List Item) : List Item :=
  preqs.tail.dropWhile fun preq => preq.type == preqType

/-- `while (preq < preqEnd)` in `check`. A turn consumes a prerequisite, so as many turns as
prerequisites are enough. -/
def checkLoop (range : List Item) : Nat → List Item → Bool
  | turns + 1, preq :: preqs =>
    if OXMType.hasMask preq.type then
      if checkPreqMasked preq range then true
      else checkLoop range turns (advancePreq preq.type (preq :: preqs))
    else
      if checkPreqValue preq.type (preq :: preqs) range then true
      else checkLoop range turns preqs
  | _, _ => false

def check (preqs range : List Item) : Bool := checkLoop range preqs.length preqs

inductive FailureReason where
  | unresolvedAmbiguity
  | conflictingPrerequisites
  | missingPrerequisite
  deriving DecidableEq, Repr

/-- What `*reason` is set to for an illegal type; it can stay as it was. -/
def illegalReason (type : Nat) : Option FailureReason :=
  if type = kValuePrereqSignal ∨ type = kMaskedPrereqSignal then some .unresolvedAmbiguity
  else if type = kPoisonPrereqSignal then some .conflictingPrerequisites
  else none

/-- `for (auto &item : oxm)` in `checkAll`, with the items before the current one. -/
def checkItems (before : List Item) : List Item → Except (Option FailureReason) Unit
  | [] => .ok ()
  | item :: rest =>
    if OXMType.isIllegal item.type then .error (illegalReason item.type)
    else if OXMType.isExperimenter item.type then checkItems (before ++ [item]) rest
    else
      match lookupInfo item.type with
      | none => checkItems (before ++ [item]) rest
      | some id =>
        -- A row without prerequisites has a null pointer.
        if id.prerequisites = [] ∨ check id.prerequisites before then
          checkItems (before ++ [item]) rest
        else .error (some .missingPrerequisite)

/-- `Prerequisites::checkAll`. The error is the reason, if one is given. -/
def checkAll (oxm : Bytes) : Except (Option FailureReason) Unit := checkItems [] (items oxm)

def insertPreqMasked (preq : Item) (list : List Item) : List Item :=
  if checkPreqMasked preq list then list else list ++ [signal kMaskedPrereqSignal, preq]

/-- `insertPreqValue`, for a prerequisite `preq` that `next` follow. -/
def insertPreqValue (preq : Item) (next list : List Item) : List Item :=
  let others := front preq.type next
  if checkPreqValue preq.type (preq :: next) list then list
  else if others ≠ [] then list ++ signal kValuePrereqSignal :: preq :: others
  else if conflict preq.type list then list ++ [signal kPoisonPrereqSignal]
  else list ++ [preq]

/-- `while (preq != preqEnd)` in `insert`. Both branches go behind the items of the type. -/
def insertLoop : Nat → List Item → List Item → List Item
  | turns + 1, preq :: preqs, list =>
    let list :=
      if OXMType.hasMask preq.type then insertPreqMasked preq list
      else insertPreqValue preq preqs list
    insertLoop turns (advancePreq preq.type (preq :: preqs)) list
  | _, _, list => list

def insertAll (list preqs : List Item) : List Item := insertLoop preqs.length preqs list

/-- `poisonDuplicatesAfterSubstitution`: poison goes before the first item of the type. -/
def poisonDuplicates (type : Nat) : List Item → List Item
  | [] => []
  | item :: rest =>
    if item.type = type then signal kPoisonPrereqSignal :: item :: rest
    else item :: poisonDuplicates type rest

/-- `list->replace(start, iter, type, value, len)` and the poisoning behind it. -/
def replaceWith (type : Nat) (value : Bytes) (rest : List Item) : List Item :=
  ⟨type, value⟩ :: poisonDuplicates type rest

/-- `while (preqType == type)` in `substitute`, from an item behind the signal on. The type
that is compared is the one of the first such item, so the loop ends only with a match or
with the list. `none` means that the assertion on the lengths fires; `some none` that the
end is reached. -/
def substituteValue (type : Nat) (value : Bytes) : List Item → Option (Option (List Item))
  | [] => some none
  | item :: rest =>
    if value.length ≠ OXMType.length item.type ∧ item.experimenter = 0 then none
    else if matchValueWithValue value item then
      some (some (replaceWith type value (advancePreq type (item :: rest))))
    else substituteValue type value rest

/-- What a call of `substitute` leaves: the list is changed, or no item is the field's. -/
inductive Substitution where
  | done (list : List Item)
  | absent
  deriving DecidableEq, Repr

namespace Substitution

def behind (item : Item) : Substitution → Substitution
  | done list => done (item :: list)
  | absent => absent

end Substitution

/-- `while (iter != iterEnd)` in `substitute` for a value. `none` means that an assertion
fires. -/
def substituteLoop (type : Nat) (value : Bytes) : List Item → Option Substitution
  | [] => some .absent
  | item :: rest =>
    if item.type = type then
      if matchValueWithValue value item then some (.done (item :: rest))
      else some (.done (signal kPoisonPrereqSignal :: item :: rest))
    else if item.type = kMaskedPrereqSignal then
      match rest with
      | [] => some .absent
      | preq :: rest =>
        if ¬ OXMType.hasMask preq.type then none
        else if OXMType.withoutMask preq.type = type then
          if 2 * value.length ≠ OXMType.length preq.type then none
          else if matchValueWithMask value preq then some (.done (replaceWith type value rest))
          else (substituteLoop type value rest).map fun s => (s.behind preq).behind item
        else (substituteLoop type value rest).map fun s => (s.behind preq).behind item
    else if item.type = kValuePrereqSignal then
      match rest with
      | [] => some .absent
      | preq :: rest' =>
        if OXMType.hasMask preq.type then none
        else if preq.type = type then
          (substituteValue type value (preq :: rest')).map fun
            | some list => .done list
            | none => .absent
        else (substituteLoop type value rest).map (·.behind item)
    else (substituteLoop type value rest).map (·.behind item)

/-- `Prerequisites::substitute` for a value without a mask. -/
def substitute (list : List Item) (type : Nat) (value : Bytes) : Option Substitution :=
  if OXMType.isExperimenter type then some .absent else substituteLoop type value list

end Libofp.Oxm.Prerequisites
