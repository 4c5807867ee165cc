/- GID: Libofp/Match/Header
   digest: The header of a match and the checks that a match has to pass. -/

import Libofp.Match.Standard

set_option autoImplicit false

namespace Libofp.Match.Header

open Octets.ByteRange Octets.BigEndian Oxm
open Match.Standard (ofpmtStandard ofpmtStandardLength)

/-- `OFPMT_OXM`. -/
def ofpmtOxm : Nat := 1

/-- `MatchHeader::type` of the bytes that start with the match. -/
def type (header : Bytes) : Nat := big16 header 0

def length (header : Bytes) : Nat := big16 header 2

def paddedLength (header : Bytes) : Nat := padLength (length header)

def oxmRange (header : Bytes) : Bytes :=
  if type header = ofpmtOxm then (header.drop 4).take (length header - 4) else []

inductive Fault where
  | insufficientBytes
  | notAligned
  | invalidLength
  | invalidType
  | invalidRemaining
  | invalidOxm
  deriving DecidableEq, Repr

def Fault.message : Fault → String
  | insufficientBytes => "Insufficient bytes"
  | notAligned => "Not aligned"
  | invalidLength => "Invalid match length"
  | invalidType => "Invalid match type"
  | invalidRemaining => "Invalid remaining length"
  | invalidOxm => "Invalid oxm range"

/-- `MatchHeader::validateInput` of a match that lies at an address, in a message of some
version. -/
def validateInput (version address lengthRemaining : Nat) (header : Bytes) :
    Except Fault Unit :=
  if lengthRemaining < 4 then .error .insufficientBytes
  else if address % 8 ≠ 0 then .error .notAligned
  else if version < 4 ∧ type header = ofpmtStandard then
    -- A standard match has one length; how much of it is there is not looked at.
    if length header ≠ ofpmtStandardLength then .error .invalidLength else .ok ()
  else if type header ≠ ofpmtOxm then .error .invalidType
  else if length header < 4 then .error .invalidLength
  else if paddedLength header > lengthRemaining then .error .invalidRemaining
  else if Range.validateInput ((header.drop 4).take (length header - 4)) then .ok ()
  else .error .invalidOxm

theorem validateInput_eq_ok_iff {version address lengthRemaining : Nat} {header : Bytes} :
    validateInput version address lengthRemaining header = .ok () ↔
      4 ≤ lengthRemaining ∧ address % 8 = 0 ∧
        (version < 4 ∧ type header = ofpmtStandard ∧ length header = ofpmtStandardLength ∨
          type header = ofpmtOxm ∧ 4 ≤ length header ∧ paddedLength header ≤ lengthRemaining ∧
            Range.validateInput (oxmRange header) = true) := by
  have distinct : ofpmtStandard ≠ ofpmtOxm := by decide
  unfold validateInput oxmRange
  split_ifs <;> grind

end Libofp.Match.Header
