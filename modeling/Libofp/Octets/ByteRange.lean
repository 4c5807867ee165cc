/- GID: Libofp/Octets/ByteRange
   digest: Byte strings and the bounds-checked tail that the library takes of them. -/

import Mathlib.Data.List.Basic

set_option autoImplicit false

namespace Libofp.Octets.ByteRange

abbrev Bytes := List UInt8

def literal (text : String) : Bytes := text.toList.map fun c => UInt8.ofNat c.toNat

/-- `SafeByteRange(data, length, offset)`: the bytes from `offset` on, or the empty
range when the offset lies beyond the end. -/
def safeByteRange (data : Bytes) (offset : Nat) : Bytes :=
  if offset ≤ data.length then data.drop offset else []

/-- `PadLength`: the next multiple of 8. -/
def padLength (length : Nat) : Nat := 8 * ((length + 7) / 8)

theorem padLength_of_mod {length : Nat} (units : length % 8 = 0) : padLength length = length := by
  unfold padLength
  omega

theorem le_padLength (length : Nat) : length ≤ padLength length := by
  unfold padLength
  omega

theorem safeByteRange_eq_drop (data : Bytes) (offset : Nat) :
    safeByteRange data offset = data.drop offset := by
  unfold safeByteRange
  split
  · rfl
  · exact (List.drop_eq_nil_of_le (by omega)).symm

end Libofp.Octets.ByteRange
