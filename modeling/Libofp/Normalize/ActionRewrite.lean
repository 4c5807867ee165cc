/- GID: Libofp/Normalize/ActionRewrite
   digest: The loop that rewrites version 1 and 2 actions in place, with the memory it touches. -/

import Libofp.Actions.ActionRange
import Libofp.Base.Iteration
import Libofp.Messages.Header
import Libofp.Oxm.Field

/-! Rewriting an action moves everything behind it, so the loop keeps its position and
the end of the list as offsets into the buffer. It also keeps a record of the places
that it reads and writes; the version byte of the message header is not recorded. -/

set_option autoImplicit false

namespace Libofp.Normalize.ActionRewrite

open Octets.ByteRange Octets.ByteList Octets.BigEndian
open Base.Iteration Oxm.Field Messages Actions.ActionRange

/-- A read or a write of `len` bytes at `pos`, and the size of the buffer at that time. -/
structure Access where
  pos : Nat
  len : Nat
  size : Nat
  deriving DecidableEq, Repr

/-- `iter`, `iterEnd` and `lengthChange` in the buffer. -/
structure Cursor where
  buf : Bytes
  iter : Nat
  iterEnd : Int
  lengthChange : Int := 0
  accesses : List Access := []
  deriving DecidableEq, Repr

def Cursor.touch (c : Cursor) (pos len : Nat) : Cursor :=
  { c with accesses := ⟨pos, len, c.buf.length⟩ :: c.accesses }

/-- `std::memcpy` into the buffer; past its end it is a memory fault. -/
def Cursor.store (c : Cursor) (pos : Nat) (data : Bytes) : Outcome Cursor :=
  if pos + data.length ≤ c.buf.length then
    .done { c.touch pos data.length with buf := poke c.buf pos data }
  else .fault

section

variable (host : Host) (slack : Slack)

def Cursor.header (c : Cursor) : Bytes := fetch slack c.buf c.iter 4

/-- `normPortNumberV1`: the "fake" ports are sign-extended to 32 bits. -/
def normPortNumberV1 (port16 : Nat) : Nat :=
  if port16 > 0xFF00 then port16 + 0xFFFF0000 else port16

/-- The memory of an `AT_OUTPUT`. -/
def atOutput (port maxlen : Nat) : Bytes :=
  bigBytes 2 OFPAT.output ++ bigBytes 2 16 ++ bigBytes 4 port ++ bigBytes 2 maxlen ++
    List.replicate 6 0

def normOutput (c : Cursor) : Outcome Cursor :=
  if enumType (c.header slack) = OFPAT.output ∧ actionLength (c.header slack) = 8 then
    let value := fetch slack c.buf (c.iter + 4) 4
    let output := atOutput (normPortNumberV1 (big16 value 0)) (big16 value 2)
    let c := c.touch (c.iter + 4) 4
    let c := { c with
      buf := insertUninitialized slack c.buf (c.iter + 4) 8
      iterEnd := c.iterEnd + 8
      lengthChange := c.lengthChange + 8 }
    c.store c.iter output
  else .done c

/-- `buf_.remove`; past the end of the buffer it is a memory fault. -/
def Cursor.removeHere (c : Cursor) (len : Nat) : Outcome Cursor :=
  if c.iter + len ≤ c.buf.length then
    .done { c.touch c.iter len with buf := remove c.buf c.iter len }
  else .fault

/-- The branch of `normSetField` that makes room for the OXM list. -/
def Cursor.resize (c : Cursor) (lengthChange : Int) : Outcome Cursor :=
  if lengthChange > 0 then
    .done { c with buf := insertUninitialized slack c.buf (c.iter + 4) lengthChange.toNat }
  else if lengthChange < 0 then c.removeHere (-lengthChange).toNat
  else .done c

def normSetField (f : OxmField) (c : Cursor) : Outcome Cursor :=
  let size := actionLength (c.header slack)
  if size % 8 ≠ 0 then .done c
  else
    -- `size - sizeof(ActionType)` is unsigned: it wraps around for an action of length 0.
    let valueLen := (size + (2 ^ 64 - 4)) % 2 ^ 64
    if valueLen ≥ f.size then
      let value := fetch slack c.buf (c.iter + 4) f.size
      let list := pad8 (oxmEntry f (throughNative host f value)) 4
      let lengthChange : Int := list.length - (size - 4)
      let c := c.touch (c.iter + 4) f.size
      (c.resize slack lengthChange).bind fun c =>
        let c := { c with
          iterEnd := c.iterEnd + lengthChange
          lengthChange := c.lengthChange + lengthChange }
        -- The two `memcpy` calls fill adjacent places.
        c.store c.iter (bigBytes 2 OFPAT.setField ++ bigBytes 2 (4 + list.length) ++ list)
    else .done c

def schemaType (version type : Nat) : Nat :=
  if version = 1 then
    if type = 3 then OFPAT.stripVlanV1
    else if type = 11 then OFPAT.enqueueV1
    else if 4 ≤ type ∧ type ≤ 8 then type - 1
    else type
  else type

/-- The cases of the switch in `normActionV1orV2` that set a field. -/
def setFieldOf (type ipProto : Nat) : Option OxmField :=
  match type with
  | 1 => some .vlanVid
  | 2 => some .vlanPcp
  | 3 => some .ethSrc
  | 4 => some .ethDst
  | 5 => some .ipv4Src
  | 6 => some .ipv4Dst
  | 7 => some .ipDscp
  | 8 => some .ipEcn
  | 9 =>
    if ipProto = 6 then some .tcpSrc
    else if ipProto = 17 then some .udpSrc
    else if ipProto = 1 then some .icmpv4Type
    else none
  | 10 =>
    if ipProto = 6 then some .tcpDst
    else if ipProto = 17 then some .udpDst
    else if ipProto = 1 then some .icmpv4Code
    else none
  | _ => none

def normActionV1orV2 (type ipProto : Nat) (c : Cursor) : Outcome Cursor :=
  let type := schemaType (Header.version c.buf) type
  if type = OFPAT.output then normOutput slack c
  else match setFieldOf type ipProto with
    | some f => normSetField host slack f c
    | none => .done c

/-- `++iter`. -/
def Cursor.next (c : Cursor) : Cursor :=
  let c := c.touch c.iter 4
  { c with iter := c.iter + padLength (max 4 (actionLength (c.header slack))) }

/-- One turn of the loop in `normActionsV1orV2`. -/
def normTurn (ipProto : Nat) (c : Cursor) : Outcome Cursor :=
  let c := c.touch c.iter 4
  let type := enumType (c.header slack)
  (if type ≤ 11 ∨ type = 13 ∨ type = 14 then normActionV1orV2 host slack type ipProto c
    else .done c).map (Cursor.next slack)

/-- `iter < iterEnd`. -/
def Cursor.more (c : Cursor) : Bool := decide ((c.iter : Int) < c.iterEnd)

/-- `Normalize::normActionsV1orV2`: the cursor where the loop ends. -/
def normActionsV1orV2 (fuel ipProto : Nat) (c : Cursor) : Outcome Cursor :=
  whileLoop Cursor.more (normTurn host slack ipProto) fuel c

end

end Libofp.Normalize.ActionRewrite
