/- GID: Libofp/Octets/GrowingBuffer
   digest: The small buffer under the byte lists: a block of memory that grows. -/

import Libofp.Octets.ByteList

/-!
A pointer into the buffer is its offset from `begin_`. A failed assertion and an access outside
of the block both end an operation with `none`. The bytes of new memory are not known: each
operation is given the ones that `malloc` or `realloc` would find there.
-/

set_option autoImplicit false

namespace Libofp.Octets.GrowingBuffer

open ByteRange ByteList

def require (asserts : Bool) (holds : Prop) [Decidable holds] : Option Unit :=
  if asserts = true ∧ ¬ holds then none else some ()

/-- `std::memcpy` into the block. -/
def copy (block : Bytes) (pos : Nat) (data : Bytes) : Option Bytes :=
  if pos + data.length ≤ block.length then some (poke block pos data) else none

/-- `std::memmove` inside of the block. -/
def move (block : Bytes) (dst src len : Nat) : Option Bytes :=
  if src + len ≤ block.length then copy block dst (window block src len) else none

abbrev Junk := Nat → UInt8

def malloc (junk : Junk) (size : Nat) : Bytes := (List.range size).map junk

def realloc (junk : Junk) (block : Bytes) (size : Nat) : Bytes :=
  block.take size ++ (malloc junk size).drop block.length

section

abbrev IntrinsicBufSize : Nat := 64

/-- The block from `begin_` to `capacity_`, and the size up to `end_`. -/
structure SmallBuffer where
  block : Bytes
  size : Nat
  isSmall : Bool
  deriving DecidableEq, Repr

namespace SmallBuffer

def capacity (b : SmallBuffer) : Nat := b.block.length

def remaining (b : SmallBuffer) : Nat := b.capacity - b.size

/-- The bytes from `begin_` to `end_`. -/
def contents (b : SmallBuffer) : Bytes := b.block.take b.size

/-- `assertInvariant`. -/
def Invariant (b : SmallBuffer) : Prop :=
  b.size ≤ b.capacity ∧ 0 < b.capacity ∧ b.capacity % 8 = 0 ∧
    (b.isSmall = true → b.capacity = IntrinsicBufSize)

instance (b : SmallBuffer) : Decidable b.Invariant := inferInstanceAs (Decidable (_ ∧ _ ∧ _ ∧ _))

def init (junk : Junk) : SmallBuffer := ⟨malloc junk IntrinsicBufSize, 0, true⟩

end SmallBuffer

/-- What `computeCapacity` returns. -/
def capacityFor (length : Nat) : Nat :=
  if length ≤ 1024 then 1024
  else if length ≤ 8192 then 8192
  else if length ≤ 65536 then 65536
  else if length ≤ 524288 then 524288
  else if length ≤ 4194304 then 4194304
  else 2 * padLength length

variable (asserts : Bool) (junk : Junk) (b : SmallBuffer)

def computeCapacity (length : Nat) : Option Nat := do
  require asserts (IntrinsicBufSize < length)
  some (capacityFor length)

/-- The new block of `increaseCapacity`. The intrinsic buffer is copied, a block of the heap is
reallocated. -/
def newBlock (newCapacity : Nat) : Option Bytes :=
  if b.isSmall then copy (malloc junk newCapacity) 0 b.contents
  else some (realloc junk b.block newCapacity)

def increaseCapacity (newLength : Nat) : Option SmallBuffer := do
  require asserts b.Invariant
  let newCapacity ← computeCapacity asserts newLength
  require asserts (b.capacity < newCapacity)
  let newBuf ← newBlock junk b newCapacity
  let grown : SmallBuffer := ⟨newBuf, b.size, false⟩
  require asserts grown.Invariant
  some grown

/-- `if (length > capacity()) increaseCapacity(length)`. -/
def ensure (length : Nat) : Option SmallBuffer :=
  if length > b.capacity then increaseCapacity asserts junk b length else some b

/-- `if (more > remaining()) increaseCapacity(newLength)`. -/
def makeRoom (more newLength : Nat) : Option SmallBuffer :=
  if more > b.remaining then increaseCapacity asserts junk b newLength else some b

def assign (data : Bytes) : Option SmallBuffer := do
  require asserts b.Invariant
  require asserts (data.length ≤ 0xFFFFFFFF)
  let b ← ensure asserts junk b data.length
  let block ← copy b.block 0 data
  some { b with block := block, size := data.length }

def insert (pos : Nat) (data : Bytes) : Option SmallBuffer := do
  require asserts (pos ≤ b.size)
  require asserts b.Invariant
  require asserts (data.length ≤ 0xFFFFFFFF)
  let b ← makeRoom asserts junk b data.length (b.size + data.length)
  require asserts (pos ≤ b.size)
  let block ← move b.block (pos + data.length) pos (b.size - pos)
  let block ← copy block pos data
  some { b with block := block, size := b.size + data.length }

def replace (pos posEnd : Nat) (data : Bytes) : Option SmallBuffer := do
  require asserts (pos ≤ posEnd ∧ posEnd ≤ b.size)
  require asserts b.Invariant
  require asserts (data.length ≤ 0xFFFFFFFF)
  if data.length > posEnd - pos then
    let more := data.length - (posEnd - pos)
    let b ← makeRoom asserts junk b more (b.size + more)
    require asserts (pos ≤ posEnd ∧ posEnd ≤ b.size)
    let block ← move b.block (posEnd + more) posEnd (b.size - posEnd)
    let block ← copy block pos data
    some { b with block := block, size := b.size + more }
  else
    let less := posEnd - pos - data.length
    let block ← move b.block (posEnd - less) posEnd (b.size - posEnd)
    let block ← copy block pos data
    some { b with block := block, size := b.size - less }

def remove (pos posEnd : Nat) : Option SmallBuffer := do
  require asserts (pos ≤ posEnd ∧ posEnd ≤ b.size)
  require asserts b.Invariant
  let less := posEnd - pos
  let block ← move b.block (posEnd - less) posEnd (b.size - posEnd)
  let b := { b with block := block, size := b.size - less }
  require asserts b.Invariant
  some b

def resize (length : Nat) : Option SmallBuffer := do
  require asserts b.Invariant
  require asserts (length ≤ 0xFFFFFFFF)
  let b ← ensure asserts junk b length
  some { b with size := length }

/-- `SmallBuffer::addUninitialized`, with the position that it returns. -/
def addUninitialized (length : Nat) : Option (Nat × SmallBuffer) := do
  require asserts b.Invariant
  require asserts (length ≤ 0xFFFFFFFF)
  let b ← makeRoom asserts junk b length (b.size + length)
  some (b.size, { b with size := b.size + length })

/-- `SmallBuffer::insertUninitialized`, which returns `pos`. -/
def insertUninitialized (pos length : Nat) : Option SmallBuffer := do
  require asserts (pos ≤ b.size)
  require asserts b.Invariant
  require asserts (length ≤ 0xFFFFFFFF)
  let b ← makeRoom asserts junk b length (b.size + length)
  require asserts (pos ≤ b.size)
  let block ← move b.block (pos + length) pos (b.size - pos)
  some { b with block := block, size := b.size + length }

/-- `SmallBuffer::replaceUninitialized`, which returns `pos`. It makes room for the bytes that
are added, not for the whole. -/
def replaceUninitialized (pos posEnd length : Nat) : Option SmallBuffer := do
  require asserts (pos ≤ posEnd ∧ posEnd ≤ b.size)
  require asserts b.Invariant
  require asserts (length ≤ 0xFFFFFFFF)
  if length > posEnd - pos then
    let more := length - (posEnd - pos)
    let b ← makeRoom asserts junk b more more
    require asserts (pos ≤ posEnd ∧ posEnd ≤ b.size)
    let block ← move b.block (posEnd + more) posEnd (b.size - posEnd)
    some { b with block := block, size := b.size + more }
  else
    let less := posEnd - pos - length
    let block ← move b.block (posEnd - less) posEnd (b.size - posEnd)
    some { b with block := block, size := b.size - less }

/-- `std::memset(pos, 0, length)`. -/
def clearAt (pos length : Nat) : Option SmallBuffer := do
  let block ← copy b.block pos (List.replicate length 0)
  some { b with block := block }

def addZeros (length : Nat) : Option SmallBuffer := do
  let (pos, b) ← addUninitialized asserts junk b length
  clearAt b pos length

def insertZeros (pos length : Nat) : Option SmallBuffer := do
  let b ← insertUninitialized asserts junk b pos length
  clearAt b pos length

def replaceZeros (pos posEnd length : Nat) : Option SmallBuffer := do
  let b ← replaceUninitialized asserts junk b pos posEnd length
  clearAt b pos length

end

inductive Op where
  | assign (data : Bytes)
  | insert (pos : Nat) (data : Bytes)
  | replace (pos posEnd : Nat) (data : Bytes)
  | remove (pos posEnd : Nat)
  | resize (length : Nat)
  | addZeros (length : Nat)
  | insertZeros (pos length : Nat)
  | replaceZeros (pos posEnd length : Nat)
  deriving DecidableEq, Repr

namespace Op

def step (asserts : Bool) (junk : Junk) (b : SmallBuffer) : Op → Option SmallBuffer
  | assign data => GrowingBuffer.assign asserts junk b data
  | insert pos data => GrowingBuffer.insert asserts junk b pos data
  | replace pos posEnd data => GrowingBuffer.replace asserts junk b pos posEnd data
  | remove pos posEnd => GrowingBuffer.remove asserts b pos posEnd
  | resize length => GrowingBuffer.resize asserts junk b length
  | addZeros length => GrowingBuffer.addZeros asserts junk b length
  | insertZeros pos length => GrowingBuffer.insertZeros asserts junk b pos length
  | replaceZeros pos posEnd length => GrowingBuffer.replaceZeros asserts junk b pos posEnd length

def apply (bytes : Bytes) : Op → Bytes
  | assign data => data
  | insert pos data => ByteList.insert bytes pos data
  | replace pos posEnd data => ByteList.replace bytes pos posEnd data
  | remove pos posEnd => ByteList.remove bytes pos (posEnd - pos)
  | resize length => bytes.take length
  | addZeros length => bytes ++ List.replicate length 0
  | insertZeros pos length => ByteList.insertZeros bytes pos length
  | replaceZeros pos posEnd length =>
    ByteList.replace bytes pos posEnd (List.replicate length 0)

/-- The positions lie in a sequence of `size` bytes, and `resize` makes it no longer. -/
def InRange (size : Nat) : Op → Prop
  | assign _ => True
  | insert pos _ => pos ≤ size
  | replace pos posEnd _ => pos ≤ posEnd ∧ posEnd ≤ size
  | remove pos posEnd => pos ≤ posEnd ∧ posEnd ≤ size
  | resize length => length ≤ size
  | addZeros _ => True
  | insertZeros pos _ => pos ≤ size
  | replaceZeros pos posEnd _ => pos ≤ posEnd ∧ posEnd ≤ size

def length : Op → Nat
  | assign data => data.length
  | insert _ data => data.length
  | replace _ _ data => data.length
  | remove _ _ => 0
  | resize length => length
  | addZeros length => length
  | insertZeros _ length => length
  | replaceZeros _ _ length => length

/-- The room that `replaceZeros` makes is enough, and the assertions on the way hold. -/
def Suffices (asserts : Bool) (b : SmallBuffer) (more : Nat) : Prop :=
  more ≤ b.remaining ∨ b.size + more ≤ capacityFor more ∧
    (asserts = true → IntrinsicBufSize < more ∧ b.capacity < capacityFor more)

def Works (asserts : Bool) (b : SmallBuffer) (op : Op) : Prop :=
  (asserts = true → op.length ≤ 0xFFFFFFFF) ∧
    match op with
    | replaceZeros pos posEnd length => Suffices asserts b (length - (posEnd - pos))
    | _ => True

end Op

section

variable {asserts : Bool} {junk : Junk} {b b' : SmallBuffer} {n : Nat}

theorem require_of {holds : Prop} [Decidable holds] (h : holds) :
    require asserts holds = some () := by
  rw [require, if_neg (fun fails => fails.2 h)]

theorem require_eq_some {holds : Prop} [Decidable holds] {u : Unit}
    (passed : require asserts holds = some u) : asserts = true → holds := by
  intro on
  by_contra fails
  rw [require, if_pos ⟨on, fails⟩] at passed
  cases passed

theorem capacityFor_spec (n : Nat) : n ≤ capacityFor n ∧ 1024 ≤ capacityFor n ∧
    capacityFor n % 8 = 0 := by
  have padded := le_padLength n
  have units : padLength n % 8 = 0 := by
    unfold padLength
    omega
  unfold capacityFor
  split_ifs <;> omega

@[simp] theorem length_malloc (junk : Junk) (n : Nat) : (malloc junk n).length = n := by
  simp [malloc]

@[simp] theorem length_realloc (junk : Junk) (block : Bytes) (n : Nat) :
    (realloc junk block n).length = n := by
  simp only [realloc, List.length_append, List.length_take, List.length_drop, length_malloc]
  omega

theorem length_copy {block block' : Bytes} {pos : Nat} {data : Bytes}
    (copied : copy block pos data = some block') : block'.length = block.length := by
  rw [copy] at copied
  split at copied
  · next inside =>
    cases copied
    exact length_poke _ inside
  · cases copied

/-- What the operations keep: the checked invariant, and at least the intrinsic capacity. -/
structure Sound (b : SmallBuffer) : Prop where
  inv : b.Invariant
  wide : IntrinsicBufSize ≤ b.capacity

theorem Sound.length_contents (sound : Sound b) : b.contents.length = b.size := by
  rw [SmallBuffer.contents, List.length_take]
  exact Nat.min_eq_left sound.inv.1

theorem Sound.store (sound : Sound b) {block : Bytes} {size : Nat}
    (length : block.length = b.block.length) (room : size ≤ b.capacity) :
    Sound { b with block := block, size := size } := by
  have capacity : ({ b with block := block, size := size } : SmallBuffer).capacity = b.capacity :=
    length
  refine ⟨⟨?_, ?_, ?_, ?_⟩, ?_⟩
  all_goals rw [capacity]
  · exact room
  · exact sound.inv.2.1
  · exact sound.inv.2.2.1
  · exact sound.inv.2.2.2
  · exact sound.wide

theorem length_newBlock {newBuf : Bytes} (made : newBlock junk b n = some newBuf) :
    newBuf.length = n := by
  rw [newBlock] at made
  split at made
  · exact (length_copy made).trans (length_malloc ..)
  · cases made
    exact length_realloc ..

theorem increaseCapacity_eq_some (grown : increaseCapacity asserts junk b n = some b') :
    b'.size = b.size ∧ b'.capacity = capacityFor n ∧
      (asserts = true → IntrinsicBufSize < n ∧ b.capacity < capacityFor n) := by
  simp only [increaseCapacity, computeCapacity, Option.bind_eq_bind, Option.bind_eq_some_iff,
    Option.some.injEq] at grown
  obtain ⟨_, -, newCapacity, ⟨_, large, rfl⟩, _, grows, newBuf, made, _, -, rfl⟩ := grown
  exact ⟨rfl, length_newBlock made, fun on => ⟨require_eq_some large on, require_eq_some grows on⟩⟩

theorem take_copy_zero {block data : Bytes} (inside : data.length ≤ block.length) :
    ∃ block', copy block 0 data = some block' ∧ block'.length = block.length ∧
      block'.take data.length = data := by
  have within : 0 + data.length ≤ block.length := by omega
  have copied : copy block 0 data = some (poke block 0 data) := if_pos within
  refine ⟨_, copied, length_copy copied, ?_⟩
  have shown := window_poke (Nat.zero_le block.length) (Nat.le_refl data.length)
  rwa [List.take_length] at shown

theorem take_newBlock (sound : Sound b) (room : b.size ≤ n) :
    ∃ newBuf, newBlock junk b n = some newBuf ∧ newBuf.take b.size = b.contents := by
  rw [newBlock]
  split
  · have fits : b.contents.length ≤ (malloc junk n).length := by
      rwa [length_malloc, sound.length_contents]
    obtain ⟨newBuf, copied, -, shown⟩ := take_copy_zero fits
    rw [sound.length_contents] at shown
    exact ⟨newBuf, copied, shown⟩
  · have enough : b.size ≤ (b.block.take n).length := by
      rw [List.length_take]
      exact Nat.le_min.mpr ⟨room, sound.inv.1⟩
    refine ⟨_, rfl, ?_⟩
    rw [realloc, List.take_append_of_le_length enough, List.take_take, Nat.min_eq_left room]
    rfl

structure Holds (b b' : SmallBuffer) (room : Nat) : Prop where
  sound : Sound b'
  contents : b'.contents = b.contents
  size : b'.size = b.size
  room : room ≤ b'.capacity

theorem increaseCapacity_keeps (sound : Sound b) (room : b.size ≤ capacityFor n)
    (ok : asserts = true → IntrinsicBufSize < n ∧ b.capacity < capacityFor n) :
    ∃ b', increaseCapacity asserts junk b n = some b' ∧ Holds b b' (capacityFor n) := by
  obtain ⟨-, large, units⟩ := capacityFor_spec n
  obtain ⟨newBuf, made, shown⟩ := @take_newBlock junk b (capacityFor n) sound room
  have length := length_newBlock made
  have longer : require asserts (IntrinsicBufSize < n) = some () := by
    rw [require, if_neg]
    exact fun fails => fails.2 (ok fails.1).1
  have grows : require asserts (b.capacity < capacityFor n) = some () := by
    rw [require, if_neg]
    exact fun fails => fails.2 (ok fails.1).2
  have capacity : (⟨newBuf, b.size, false⟩ : SmallBuffer).capacity = capacityFor n := length
  have inv : (⟨newBuf, b.size, false⟩ : SmallBuffer).Invariant :=
    ⟨by rw [capacity]; exact room, by rw [capacity]; omega, by rw [capacity]; exact units,
      fun small => by cases small⟩
  have wide : IntrinsicBufSize ≤ capacityFor n := Nat.le_trans (by decide) large
  refine ⟨⟨newBuf, b.size, false⟩, ?_, ⟨inv, capacity ▸ wide⟩, shown, rfl, capacity.ge⟩
  simp only [increaseCapacity, computeCapacity, Option.bind_eq_bind, require_of sound.inv, longer,
    grows, made, require_of inv, Option.bind_some]

theorem makeRoom_keeps (sound : Sound b) (more : Nat) :
    ∃ b', makeRoom asserts junk b more (b.size + more) = some b' ∧
      Holds b b' (b.size + more) := by
  have ends := sound.inv.1
  have wide := sound.wide
  rw [makeRoom]
  split
  · next full =>
    obtain ⟨enough, -, -⟩ := capacityFor_spec (b.size + more)
    rw [SmallBuffer.remaining] at full
    obtain ⟨b', grown, holds⟩ := @increaseCapacity_keeps asserts junk b (b.size + more) sound
      (by omega) (fun _ => by omega)
    exact ⟨b', grown, holds.sound, holds.contents, holds.size, enough.trans holds.room⟩
  · next free =>
    rw [SmallBuffer.remaining] at free
    exact ⟨b, rfl, sound, rfl, rfl, by omega⟩

theorem ensure_keeps (sound : Sound b) (length : Nat) :
    ∃ b', ensure asserts junk b length = some b' ∧ Holds b b' length := by
  have ends := sound.inv.1
  have wide := sound.wide
  rw [ensure]
  split
  · next full =>
    obtain ⟨enough, -, -⟩ := capacityFor_spec length
    obtain ⟨b', grown, holds⟩ := @increaseCapacity_keeps asserts junk b length sound
      (by omega) (fun _ => by omega)
    exact ⟨b', grown, holds.sound, holds.contents, holds.size, enough.trans holds.room⟩
  · next free => exact ⟨b, rfl, sound, rfl, rfl, Nat.not_lt.mp free⟩

end

section

variable {asserts : Bool} {junk : Junk} {b : SmallBuffer} {pos posEnd : Nat} {data : Bytes}

theorem poke_poke {block : Bytes} {size : Nat} (ordered : pos ≤ posEnd) (inside : posEnd ≤ size)
    (ends : size ≤ block.length) (room : pos + data.length + (size - posEnd) ≤ block.length) :
    (poke (poke block (pos + data.length) (window block posEnd (size - posEnd))) pos data).take
      (pos + data.length + (size - posEnd)) =
        ByteList.replace (block.take size) pos posEnd data := by
  have tail : (window block posEnd (size - posEnd)).length = size - posEnd :=
    length_window block (by omega)
  have front : (block.take pos).length = pos := by
    rw [List.length_take]
    omega
  have behind : (poke block (pos + data.length) (window block posEnd (size - posEnd))).drop
      (pos + data.length) = window block posEnd (size - posEnd) ++
        block.drop (pos + data.length + (size - posEnd)) := by
    have head : (block.take (pos + data.length)).length = pos + data.length := by
      rw [List.length_take]
      omega
    rw [poke, ByteList.replace, tail, List.append_assoc, List.drop_left' head]
  have shown : (block.take size).drop posEnd = window block posEnd (size - posEnd) :=
    List.drop_take ..
  have starts : (block.take size).take pos = block.take pos := by
    rw [List.take_take, Nat.min_eq_left (by omega)]
  have whole : poke (poke block (pos + data.length) (window block posEnd (size - posEnd))) pos
      data = block.take pos ++ data ++ window block posEnd (size - posEnd) ++
        block.drop (pos + data.length + (size - posEnd)) := by
    have first := take_poke (window block posEnd (size - posEnd))
      (show pos + data.length ≤ block.length by omega) (Nat.le_add_right pos data.length)
    conv_lhs => rw [poke, ByteList.replace]
    rw [first, behind]
    simp
  have length : (block.take pos ++ data ++ window block posEnd (size - posEnd)).length =
      pos + data.length + (size - posEnd) := by
    rw [List.length_append, List.length_append, front, tail]
  rw [whole, List.take_left' length, ByteList.replace, shown, starts]

theorem splice {place size : Nat} (sound : Sound b) (ordered : pos ≤ posEnd)
    (inside : posEnd ≤ b.size) (starts : place = pos + data.length)
    (total : size = place + (b.size - posEnd)) (room : size ≤ b.capacity) :
    ∃ moved block, move b.block place posEnd (b.size - posEnd) = some moved ∧
      copy moved pos data = some block ∧ Sound { b with block := block, size := size } ∧
      block.take size = ByteList.replace b.contents pos posEnd data := by
  subst total starts
  have ends := sound.inv.1
  rw [SmallBuffer.capacity] at room ends
  have tail : (window b.block posEnd (b.size - posEnd)).length = b.size - posEnd :=
    length_window _ (by omega)
  have moves : move b.block (pos + data.length) posEnd (b.size - posEnd) =
      some (poke b.block (pos + data.length) (window b.block posEnd (b.size - posEnd))) := by
    rw [move, if_pos (by omega), copy, if_pos (by omega)]
  have length : (poke b.block (pos + data.length)
      (window b.block posEnd (b.size - posEnd))).length = b.block.length :=
    length_poke _ (by omega)
  have copies : copy (poke b.block (pos + data.length) (window b.block posEnd (b.size - posEnd)))
      pos data = some (poke (poke b.block (pos + data.length)
        (window b.block posEnd (b.size - posEnd))) pos data) := by
    rw [copy, if_pos (by omega)]
  exact ⟨_, _, moves, copies, sound.store ((length_copy copies).trans length) room,
    poke_poke ordered inside ends room⟩

end

section

variable {asserts : Bool} {junk : Junk} {b : SmallBuffer}

def Gives (bytes : Bytes) (outcome : Option SmallBuffer) : Prop :=
  ∃ b', outcome = some b' ∧ Sound b' ∧ b'.contents = bytes

theorem require_length {n : Nat} (short : asserts = true → n ≤ 0xFFFFFFFF) :
    require asserts (n ≤ 0xFFFFFFFF) = some () := by
  rw [require, if_neg]
  exact fun fails => fails.2 (short fails.1)

theorem gives_assign (sound : Sound b) {data : Bytes}
    (short : asserts = true → data.length ≤ 0xFFFFFFFF) :
    Gives data (assign asserts junk b data) := by
  obtain ⟨g, made, holds⟩ := @ensure_keeps asserts junk b sound data.length
  obtain ⟨block, copied, length, shown⟩ := take_copy_zero holds.room
  refine ⟨_, ?_, holds.sound.store length holds.room, shown⟩
  simp [assign, require_of sound.inv, require_length short, made, copied]

variable {pos length posEnd : Nat}

theorem gives_insert (sound : Sound b) {data : Bytes} (inside : pos ≤ b.size)
    (short : asserts = true → data.length ≤ 0xFFFFFFFF) :
    Gives (ByteList.insert b.contents pos data) (insert asserts junk b pos data) := by
  obtain ⟨g, made, holds⟩ := @makeRoom_keeps asserts junk b sound data.length
  have room := holds.room
  rw [← holds.size] at room inside
  obtain ⟨moved, block, moves, copies, after, shown⟩ :=
    @splice g pos pos data _ (g.size + data.length) holds.sound (Nat.le_refl pos) inside rfl
      (by omega) room
  refine ⟨_, ?_, after, ?_⟩
  · simp only [insert, Option.bind_eq_bind, require_of (holds.size ▸ inside), require_of sound.inv,
      require_length short, made, require_of inside, moves, copies, Option.bind_some]
  · rwa [← holds.contents]

theorem clearAt_eq {g : SmallBuffer} {block : Bytes}
    (copies : copy g.block pos (List.replicate length 0) = some block) :
    clearAt g pos length = some { g with block := block } := by
  rw [clearAt, copies]
  rfl

section

variable (sound : Sound b)

include sound

theorem gives_insertZeros (inside : pos ≤ b.size) (short : asserts = true → length ≤ 0xFFFFFFFF) :
    Gives (ByteList.insertZeros b.contents pos length)
      (insertZeros asserts junk b pos length) := by
  obtain ⟨g, made, holds⟩ := @makeRoom_keeps asserts junk b sound length
  have room := holds.room
  rw [← holds.size] at room inside
  obtain ⟨moved, block, moves, copies, after, shown⟩ :=
    @splice g pos pos (List.replicate length 0) (pos + length) (g.size + length) holds.sound
      (Nat.le_refl pos) inside (by simp) (by omega) room
  refine ⟨_, ?_, after, ?_⟩
  · simp only [insertZeros, insertUninitialized, Option.bind_eq_bind,
      require_of (holds.size ▸ inside), require_of sound.inv, require_length short, made,
      require_of inside, moves, Option.bind_some]
    exact clearAt_eq copies
  · rwa [← holds.contents]

theorem gives_addZeros (short : asserts = true → length ≤ 0xFFFFFFFF) :
    Gives (b.contents ++ List.replicate length 0) (addZeros asserts junk b length) := by
  obtain ⟨g, made, holds⟩ := @makeRoom_keeps asserts junk b sound length
  have room := holds.room
  rw [← holds.size] at room
  have inside : g.size + (List.replicate length (0 : UInt8)).length ≤ g.block.length := by
    rwa [List.length_replicate]
  have copies : copy g.block g.size (List.replicate length 0) =
      some (poke g.block g.size (List.replicate length 0)) := if_pos inside
  have shown : (poke g.block g.size (List.replicate length 0)).take (g.size + length) =
      g.contents ++ List.replicate length 0 := by
    have front : (g.contents ++ List.replicate length (0 : UInt8)).length = g.size + length := by
      rw [List.length_append, holds.sound.length_contents, List.length_replicate]
    exact List.take_left' front
  refine ⟨_, ?_, holds.sound.store (length_copy copies) room, ?_⟩
  · simp only [addZeros, addUninitialized, Option.bind_eq_bind, require_of sound.inv,
      require_length short, made, Option.bind_some]
    exact clearAt_eq copies
  · rwa [← holds.contents]

theorem gives_replace {data : Bytes} (ranged : pos ≤ posEnd ∧ posEnd ≤ b.size)
    (short : asserts = true → data.length ≤ 0xFFFFFFFF) :
    Gives (ByteList.replace b.contents pos posEnd data)
      (replace asserts junk b pos posEnd data) := by
  obtain ⟨ordered, inside⟩ := ranged
  have ends := sound.inv.1
  simp only [replace, Option.bind_eq_bind, require_of (And.intro ordered inside),
    require_of sound.inv, require_length short, Option.bind_some]
  split
  · next longer =>
    obtain ⟨g, made, holds⟩ :=
      @makeRoom_keeps asserts junk b sound (data.length - (posEnd - pos))
    have room := holds.room
    rw [← holds.size] at room inside
    obtain ⟨moved, block, moves, copies, after, shown⟩ :=
      @splice g pos posEnd data (posEnd + (data.length - (posEnd - pos))) _ holds.sound ordered
        inside (by omega) (by omega) room
    refine ⟨_, ?_, after, ?_⟩
    · simp [made, require_of (And.intro ordered inside), moves, copies]
    · rwa [← holds.contents]
  · next shorter =>
    obtain ⟨moved, block, moves, copies, after, shown⟩ :=
      @splice b pos posEnd data (posEnd - (posEnd - pos - data.length))
        (b.size - (posEnd - pos - data.length)) sound ordered inside (by omega) (by omega)
        (by omega)
    refine ⟨_, ?_, after, shown⟩
    simp [moves, copies]

theorem gives_remove (ranged : pos ≤ posEnd ∧ posEnd ≤ b.size) :
    Gives (ByteList.remove b.contents pos (posEnd - pos)) (remove asserts b pos posEnd) := by
  obtain ⟨ordered, inside⟩ := ranged
  have ends := sound.inv.1
  obtain ⟨moved, block, moves, copies, after, shown⟩ :=
    @splice b pos posEnd [] (posEnd - (posEnd - pos)) (b.size - (posEnd - pos)) sound ordered inside
      (Nat.sub_sub_self ordered) (by omega) (by omega)
  have same : moved = block := by
    rw [copy] at copies
    split at copies
    · rw [poke, ByteList.replace, List.append_nil, List.length_nil, Nat.add_zero,
        List.take_append_drop] at copies
      exact Option.some.inj copies
    · cases copies
  refine ⟨_, ?_, after, ?_⟩
  · simp only [remove, Option.bind_eq_bind, require_of (And.intro ordered inside),
      require_of sound.inv, moves, same, require_of after.inv, Option.bind_some]
  · have behind : pos + (posEnd - pos) = posEnd := by omega
    rw [ByteList.remove, behind]
    rwa [ByteList.replace, List.append_nil] at shown

theorem gives_resize (shorter : length ≤ b.size) (short : asserts = true → length ≤ 0xFFFFFFFF) :
    Gives (b.contents.take length) (resize asserts junk b length) := by
  have ends := sound.inv.1
  have free : ensure asserts junk b length = some b := by
    rw [ensure, if_neg (by omega)]
  refine ⟨{ b with size := length }, ?_, ⟨⟨shorter.trans ends, sound.inv.2⟩, sound.wide⟩, ?_⟩
  · simp [resize, require_of sound.inv, require_length short, free]
  · rw [SmallBuffer.contents, SmallBuffer.contents, List.take_take, Nat.min_eq_left shorter]

theorem makeRoom_suffices {more : Nat} (enough : Op.Suffices asserts b more) :
    ∃ b', makeRoom asserts junk b more more = some b' ∧ Holds b b' (b.size + more) := by
  have ends := sound.inv.1
  rw [makeRoom]
  split
  · next full =>
    obtain ⟨room, ok⟩ := enough.resolve_left (by omega)
    obtain ⟨b', grown, holds⟩ := @increaseCapacity_keeps asserts junk b more sound (by omega) ok
    exact ⟨b', grown, holds.sound, holds.contents, holds.size, room.trans holds.room⟩
  · next free =>
    rw [SmallBuffer.remaining] at free
    exact ⟨b, rfl, sound, rfl, rfl, by omega⟩

theorem gives_replaceZeros
    (ranged : pos ≤ posEnd ∧ posEnd ≤ b.size) (short : asserts = true → length ≤ 0xFFFFFFFF)
    (enough : Op.Suffices asserts b (length - (posEnd - pos))) :
    Gives (ByteList.replace b.contents pos posEnd (List.replicate length 0))
      (replaceZeros asserts junk b pos posEnd length) := by
  obtain ⟨ordered, inside⟩ := ranged
  have ends := sound.inv.1
  rw [replaceZeros, replaceUninitialized]
  simp only [Option.bind_eq_bind, require_of (And.intro ordered inside), require_of sound.inv,
    require_length short, Option.bind_some]
  split
  · next longer =>
    obtain ⟨g, made, holds⟩ := @makeRoom_suffices asserts junk b sound _ enough
    have room := holds.room
    rw [← holds.size] at room inside
    obtain ⟨moved, block, moves, copies, after, shown⟩ :=
      @splice g pos posEnd (List.replicate length 0) (posEnd + (length - (posEnd - pos))) _
        holds.sound ordered inside (by simp; omega) (by omega) room
    refine ⟨_, ?_, after, ?_⟩
    · simp only [made, require_of (And.intro ordered inside), moves, Option.bind_some]
      exact clearAt_eq copies
    · rwa [← holds.contents]
  · next shorter =>
    obtain ⟨moved, block, moves, copies, after, shown⟩ :=
      @splice b pos posEnd (List.replicate length 0) (posEnd - (posEnd - pos - length))
        (b.size - (posEnd - pos - length)) sound ordered inside (by simp; omega) (by omega)
        (by omega)
    refine ⟨_, ?_, after, shown⟩
    simp only [moves, Option.bind_some]
    exact clearAt_eq copies

theorem gives_step {op : Op} (ranged : op.InRange b.size)
    (works : op.Works asserts b) : Gives (op.apply b.contents) (op.step asserts junk b) := by
  obtain ⟨short, enough⟩ := works
  cases op with
  | assign data => exact gives_assign sound short
  | insert pos data => exact gives_insert sound ranged short
  | replace pos posEnd data => exact gives_replace sound ranged short
  | remove pos posEnd => exact gives_remove sound ranged
  | resize length => exact gives_resize sound ranged short
  | addZeros length => exact gives_addZeros sound short
  | insertZeros pos length => exact gives_insertZeros sound ranged short
  | replaceZeros pos posEnd length => exact gives_replaceZeros sound ranged short enough

end

theorem move_makeRoom {more : Nat} (inside : posEnd ≤ b.size) (lacks : ¬ Op.Suffices asserts b more)
    {g : SmallBuffer} (made : makeRoom asserts junk b more more = some g) :
    move g.block (posEnd + more) posEnd (g.size - posEnd) = none := by
  obtain ⟨full, short⟩ := not_or.mp lacks
  rw [makeRoom, if_pos (Nat.not_le.mp full)] at made
  obtain ⟨size, capacity, ok⟩ := increaseCapacity_eq_some made
  have beyond : capacityFor more < b.size + more := by
    by_contra fits
    exact short ⟨Nat.not_lt.mp fits, ok⟩
  have length : g.block.length = capacityFor more := capacity
  rw [move]
  split
  · next source =>
    have tail : (window g.block posEnd (g.size - posEnd)).length = g.size - posEnd :=
      length_window _ source
    rw [copy, if_neg (by omega)]
  · rfl

theorem replaceZeros_lacks (ranged : pos ≤ posEnd ∧ posEnd ≤ b.size)
    (lacks : ¬ Op.Suffices asserts b (length - (posEnd - pos))) :
    replaceZeros asserts junk b pos posEnd length = none := by
  have longer : length > posEnd - pos := by
    by_contra shorter
    exact lacks (.inl (by omega))
  by_contra works
  obtain ⟨b', works⟩ := Option.ne_none_iff_exists'.mp works
  simp only [replaceZeros, replaceUninitialized, if_pos longer, Option.bind_eq_bind,
    Option.bind_eq_some_iff] at works
  obtain ⟨_, ⟨_, -, _, -, _, -, g, made, _, -, block, moves, -⟩, -⟩ := works
  rw [move_makeRoom ranged.2 lacks made] at moves
  cases moves

theorem length_of_step {op : Op} {b' : SmallBuffer} (done : op.step asserts junk b = some b') :
    asserts = true → op.length ≤ 0xFFFFFFFF := by
  intro on
  -- Every operation but the removal asserts the number of its bytes.
  cases op with
  | remove pos posEnd => exact Nat.zero_le _
  | _ =>
    simp only [Op.step, assign, insert, replace, resize, addZeros, addUninitialized, insertZeros,
      insertUninitialized, replaceZeros, replaceUninitialized, Option.bind_eq_bind,
      Option.bind_eq_some_iff] at done
    grind [require_eq_some, Op.length]

theorem works_of_step {op : Op} (ranged : op.InRange b.size) {b' : SmallBuffer}
    (done : op.step asserts junk b = some b') : op.Works asserts b := by
  refine ⟨length_of_step done, ?_⟩
  cases op with
  | replaceZeros pos posEnd length =>
    by_contra lacks
    rw [Op.step, replaceZeros_lacks ranged lacks] at done
    cases done
  | _ => trivial

end

section

variable {asserts : Bool}

abbrev Calls := List (Op × Junk)

def run (asserts : Bool) (b : SmallBuffer) (calls : Calls) : Option SmallBuffer :=
  calls.foldlM (fun b call => call.1.step asserts call.2 b) b

def applyAll (bytes : Bytes) (calls : Calls) : Bytes :=
  calls.foldl (fun bytes call => call.1.apply bytes) bytes

def Ranged : Bytes → Calls → Prop
  | _, [] => True
  | bytes, call :: calls => call.1.InRange bytes.length ∧ Ranged (call.1.apply bytes) calls

def AllWork (asserts : Bool) (b : SmallBuffer) (calls : Calls) : Prop :=
  ∀ before call after b', calls = before ++ call :: after → run asserts b before = some b' →
    call.1.Works asserts b'

theorem run_cons (b : SmallBuffer) (call : Op × Junk) (calls : Calls) :
    run asserts b (call :: calls) =
      (call.1.step asserts call.2 b).bind fun b' => run asserts b' calls := rfl

variable {b : SmallBuffer}

theorem gives_run {calls : Calls} (sound : Sound b)
    (ranged : Ranged b.contents calls) (all : AllWork asserts b calls) :
    Gives (applyAll b.contents calls) (run asserts b calls) := by
  induction calls generalizing b with
  | nil => exact ⟨b, rfl, sound, rfl⟩
  | cons call calls ih =>
    obtain ⟨inRange, later⟩ := ranged
    rw [sound.length_contents] at inRange
    have works := all [] call calls b rfl rfl
    obtain ⟨b', stepped, sound', shown⟩ := @gives_step asserts call.2 b sound call.1 inRange works
    rw [run_cons, stepped, Option.bind_some, applyAll, List.foldl_cons, ← shown]
    rw [← shown] at later
    refine ih sound' later ?_
    intro before next after b'' split ran
    refine all (call :: before) next after b'' (by rw [split]; rfl) ?_
    rwa [run_cons, stepped]

theorem run_append (b : SmallBuffer) (before after : Calls) :
    run asserts b (before ++ after) =
      (run asserts b before).bind fun b' => run asserts b' after := List.foldlM_append ..

theorem ranged_append {bytes : Bytes} {before after : Calls}
    (ranged : Ranged bytes (before ++ after)) :
    Ranged bytes before ∧ Ranged (applyAll bytes before) after := by
  induction before generalizing bytes with
  | nil => exact ⟨trivial, ranged⟩
  | cons call before ih =>
    obtain ⟨first, later⟩ := ih ranged.2
    exact ⟨⟨ranged.1, first⟩, later⟩

theorem sound_init (junk : Junk) : Sound (SmallBuffer.init junk) := by
  have capacity : (SmallBuffer.init junk).capacity = IntrinsicBufSize := length_malloc ..
  refine ⟨⟨Nat.zero_le _, ?_, ?_, fun _ => capacity⟩, capacity.ge⟩ <;> rw [capacity] <;> decide

theorem allWork_cons {call : Op × Junk} {calls : Calls} (works : call.1.Works asserts b)
    (later : ∀ b' ∈ call.1.step asserts call.2 b, AllWork asserts b' calls) :
    AllWork asserts b (call :: calls) := by
  intro before call' after b' split ran
  cases before with
  | nil =>
    obtain ⟨rfl, -⟩ := List.cons.inj split
    cases ran
    exact works
  | cons first before =>
    obtain ⟨rfl, rest⟩ := List.cons.inj split
    obtain ⟨next, stepped, ran⟩ := Option.bind_eq_some_iff.mp ran
    exact later next stepped before call' after b' rest ran

theorem gives_of_run {b' : SmallBuffer} {calls : Calls} (sound : Sound b)
    (ranged : Ranged b.contents calls) (done : run asserts b calls = some b') :
    Sound b' ∧ b'.contents = applyAll b.contents calls := by
  induction calls generalizing b with
  | nil =>
    cases done
    exact ⟨sound, rfl⟩
  | cons call calls ih =>
    obtain ⟨inRange, later⟩ := ranged
    rw [sound.length_contents] at inRange
    obtain ⟨next, stepped, rest⟩ := Option.bind_eq_some_iff.mp done
    obtain ⟨next', stepped', sound', shown⟩ :=
      @gives_step asserts call.2 b sound call.1 inRange (works_of_step inRange stepped)
    obtain rfl := Option.some.inj (stepped.symm.trans stepped')
    rw [applyAll, List.foldl_cons, ← shown]
    exact ih sound' (shown ▸ later) rest

end

/-- The buffer is the sequence of bytes after every operation of a run, exactly when each
`replaceZeros` gets enough room and the numbers of bytes pass the assertions. -/
theorem run_refines_iff (asserts : Bool) (junk : Junk) (calls : Calls) (ranged : Ranged [] calls) :
    (∀ before, before <+: calls → ∃ b, run asserts (.init junk) before = some b ∧
      b.size ≤ b.capacity ∧ b.contents = applyAll [] before) ↔
      AllWork asserts (.init junk) calls := by
  have start := sound_init junk
  have empty : (SmallBuffer.init junk).contents = [] := List.take_zero
  rw [← empty] at ranged ⊢
  constructor
  · rintro right before call after b rfl ran
    obtain ⟨first, later⟩ := ranged_append ranged
    obtain ⟨sound, shown⟩ := gives_of_run start first ran
    obtain ⟨b', done, -, -⟩ := right (before ++ [call]) ⟨after, by simp⟩
    rw [run_append, ran, Option.bind_some, run_cons] at done
    obtain ⟨next, stepped, -⟩ := Option.bind_eq_some_iff.mp done
    have inRange := later.1
    rw [← shown, sound.length_contents] at inRange
    exact works_of_step inRange stepped
  · rintro all before ⟨after, rfl⟩
    have fewer : AllWork asserts (.init junk) before := by
      intro first call later b split ran
      refine all first call (later ++ after) b ?_ ran
      rw [split, List.append_assoc]
      rfl
    obtain ⟨b, done, sound, shown⟩ := gives_run start (ranged_append ranged).1 fewer
    exact ⟨b, done, sound.inv.1, shown⟩

/-- Seventy bytes, of which three are removed, and zeros at the front. -/
theorem run_refines_seventy :
    let calls : Calls := [(.assign (List.replicate 70 7), fun _ => 1), (.remove 2 5, fun _ => 2),
      (.replaceZeros 0 1 4, fun _ => 3)]
    Ranged [] calls ∧ ∃ b, run true (.init fun _ => 9) calls = some b ∧
      b.contents = applyAll [] calls := by
  intro calls
  have ranged : Ranged [] calls := by
    refine ⟨trivial, ⟨by decide, by decide⟩, ⟨by decide, by decide⟩, trivial⟩
  have room : ∀ b ∈ (Op.assign (List.replicate 70 7)).step true (fun _ => 1) (.init fun _ => 9),
      ∀ b' ∈ (Op.remove 2 5).step true (fun _ => 2) b, 3 ≤ b'.remaining := by
    decide +kernel
  have all : AllWork true (.init fun _ => 9) calls := by
    refine allWork_cons ⟨fun _ => by decide, trivial⟩ fun b assigned => ?_
    refine allWork_cons ⟨fun _ => by decide, trivial⟩ fun b' removed => ?_
    refine allWork_cons ⟨fun _ => by decide, Or.inl (room b assigned b' removed)⟩ fun _ _ => ?_
    rintro (_ | _) _ _ _ ⟨⟩
  obtain ⟨b, done, -, shown⟩ :=
    (run_refines_iff true (fun _ => 9) calls ranged).mpr all calls (List.prefix_refl _)
  exact ⟨ranged, b, done, shown⟩

/-- In a block of 1024 bytes with 65 in use, 960 zeros are added: the block is not enlarged,
and their last one does not fit. -/
theorem run_overflows : ∃ junk calls, Ranged [] calls ∧
    (∀ call ∈ calls, call.1.length ≤ 0xFFFFFFFF) ∧
    ∀ asserts, run asserts (.init junk) calls = none := by
  refine ⟨fun _ => 0, [(.assign (List.replicate 65 7), fun _ => 0),
    (.replaceZeros 65 65 960, fun _ => 0)], ⟨trivial, ⟨by decide, by decide⟩, trivial⟩, by decide,
    ?_⟩
  decide +kernel

end Libofp.Octets.GrowingBuffer
