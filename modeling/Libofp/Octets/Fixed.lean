/- GID: Libofp/Octets/Fixed
   generality: G
   digest: Byte strings of a fixed size, and the integers that they spell. -/

import Libofp.Octets.ByteList

set_option autoImplicit false

namespace Libofp.Octets.Fixed

open ByteRange BigEndian

/-- A value of `n` bytes in memory. -/
structure ByteBlock (n : Nat) where
  bytes : Bytes
  size : bytes.length = n
  deriving DecidableEq, Repr

namespace ByteBlock

variable {n : Nat}

@[simp] theorem length_bytes (value : ByteBlock n) : value.bytes.length = n := value.size

def zero (n : Nat) : ByteBlock n := ⟨List.replicate n 0, List.length_replicate ..⟩

/-- `std::memcpy` of the first `n` bytes; zeros stand for what the string does not have. -/
def copy (n : Nat) (data : Bytes) : ByteBlock n :=
  ⟨(data ++ List.replicate n 0).take n, by simp⟩

theorem bytes_copy {data : Bytes} (size : data.length = n) : (copy n data).bytes = data := by
  exact List.take_left' size

def toNat (value : ByteBlock n) : Nat := bigNat value.bytes

end ByteBlock

end Libofp.Octets.Fixed
