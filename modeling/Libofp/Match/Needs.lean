/- GID: Libofp/Match/Needs
   digest: The prerequisites of the fields of a match as conditions on other fields. -/

import Libofp.Match.Builder
import Libofp.Oxm.PrerequisiteCheck

set_option autoImplicit false

namespace Libofp.Match.Needs

open Octets.ByteRange Octets.BigEndian Oxm.Range Oxm.FieldTable
open Oxm.Prerequisites Builder

@[ext]
structure Choice where
  id : InternalId
  first : Bytes
  others : List Bytes
  sized : ∀ value ∈ first :: others, value.length = id.size
  regular : id.isExperimenter = false
  deriving Repr

instance : DecidableEq Choice := fun _ _ => decidable_of_iff _ Choice.ext_iff.symm

@[ext]
structure Masking where
  id : InternalId
  value : Bytes
  mask : Bytes
  sizedValue : value.length = id.size
  sizedMask : mask.length = id.size
  regular : id.isExperimenter = false
  deriving Repr

instance : DecidableEq Masking := fun _ _ => decidable_of_iff _ Masking.ext_iff.symm

inductive Need where
  | oneOf (choice : Choice)
  | under (masking : Masking)
  deriving DecidableEq, Repr

namespace Choice

def values (c : Choice) : List Bytes := c.first :: c.others

def field (c : Choice) : Field := ⟨c.id, c.first, c.sized _ List.mem_cons_self, c.regular⟩

end Choice

namespace Need

def id : Need → InternalId
  | oneOf c => c.id
  | under m => m.id

def accepts : Need → Bytes → Bool
  | oneOf c, value => c.values.contains value
  | under m, value => List.zipWith (· &&& ·) value m.mask == m.value

def isChoice : Need → Bool
  | oneOf _ => true
  | under _ => false

def items : Need → List Item
  | oneOf c => c.values.map fun value => ⟨c.id.type, value⟩
  | under m => [⟨m.id.typeWithMask, m.value ++ m.mask⟩]

theorem regular (n : Need) : n.id.isExperimenter = false := by
  cases n with
  | oneOf c => exact c.regular
  | under m => exact m.regular

end Need

/-- `FIELD{first}, FIELD{other}, ...`. -/
def oneOf (id : InternalId) (regular : id.isExperimenter = false) (first : Nat)
    (others : List Nat) : Need :=
  .oneOf ⟨id, bigBytes id.size first, others.map (bigBytes id.size), by
    simp, regular⟩

/-- `FIELD{value} & FIELD{mask}`. -/
def under (id : InternalId) (regular : id.isExperimenter = false) (value mask : Nat) : Need :=
  .under ⟨id, bigBytes id.size value, bigBytes id.size mask, length_bigBytes .., length_bigBytes ..,
    regular⟩

def ip : Need := oneOf .ethType rfl 0x0800 [0x86dd]

def ipv4 : Need := oneOf .ethType rfl 0x0800 []

def ipv6 : Need := oneOf .ethType rfl 0x86dd []

def protocol (number : Nat) : Need := oneOf .ipProto rfl number []

def needs : InternalId → List Need
  | .inPhyPort => [under .inPort rfl 0 0]
  | .vlanPcp => [under .vlanVid rfl 0x1000 0x1000]
  | .ipDscp | .ipEcn | .ipProto | .nxIpFrag | .nxIpTtl => [ip]
  | .ipv4Src | .ipv4Dst => [ipv4]
  | .tcpSrc | .tcpDst | .tcpFlags | .nxTcpFlags => [ip, protocol 6]
  | .udpSrc | .udpDst => [ip, protocol 17]
  | .sctpSrc | .sctpDst => [ip, protocol 132]
  | .icmpv4Type | .icmpv4Code => [ipv4, protocol 1]
  | .arpOp | .arpSpa | .arpTpa | .arpSha | .arpTha => [oneOf .ethType rfl 0x0806 []]
  | .ipv6Src | .ipv6Dst | .ipv6Flabel | .ipv6Exthdr => [ipv6]
  | .icmpv6Type | .icmpv6Code => [ipv6, protocol 58]
  | .ipv6NdTarget => [ipv6, protocol 58, oneOf .icmpv6Type rfl 135 [136]]
  | .ipv6NdSll => [ipv6, protocol 58, oneOf .icmpv6Type rfl 135 []]
  | .ipv6NdTll => [ipv6, protocol 58, oneOf .icmpv6Type rfl 136 []]
  | .mplsLabel | .mplsTc | .mplsBos => [oneOf .ethType rfl 0x8847 [0x8848]]
  | .pbbIsid | .pbbUca => [oneOf .ethType rfl 0x88E7 []]
  | _ => []

def table : List Need :=
  [under .inPort rfl 0 0, under .vlanVid rfl 0x1000 0x1000, ip, ipv4, ipv6, protocol 6,
    protocol 17, protocol 132, protocol 1, protocol 58, oneOf .ethType rfl 0x0806 [],
    oneOf .icmpv6Type rfl 135 [136], oneOf .icmpv6Type rfl 135 [], oneOf .icmpv6Type rfl 136 [],
    oneOf .ethType rfl 0x8847 [0x8848], oneOf .ethType rfl 0x88E7 []]

theorem needs_subset_table (id : InternalId) : ∀ n ∈ needs id, n ∈ table := by
  cases id <;> decide

theorem table_kinds : ∀ n ∈ table, ∀ n' ∈ table, n.id = n'.id →
    n.isChoice = n'.isChoice ∧ (n.isChoice = false → n = n') := by
  decide

theorem needs_id_ne (id : InternalId) : ∀ n ∈ needs id, n.id ≠ id := by
  cases id <;> decide

theorem prerequisites_eq (id : InternalId) : id.prerequisites = (needs id).flatMap Need.items := by
  cases id <;> rfl

theorem nodup_needs (id : InternalId) : ((needs id).map Need.id).Nodup := by
  cases id <;> decide

section

variable {id other : InternalId}

theorem hasMask_type (id : InternalId) : OXMType.hasMask id.type = false := by
  cases id <;> decide

theorem hasMask_typeWithMask (id : InternalId) : OXMType.hasMask id.typeWithMask = true := by
  cases id <;> decide

theorem length_type (id : InternalId) : OXMType.length id.type = id.size := by
  cases id <;> decide

theorem length_typeWithMask (id : InternalId) : OXMType.length id.typeWithMask = 2 * id.size := by
  cases id <;> decide

theorem withMask_type (id : InternalId) : OXMType.withMask id.type = id.typeWithMask := by
  cases id <;> decide

theorem withoutMask_typeWithMask (id : InternalId) :
    OXMType.withoutMask id.typeWithMask = id.type := by
  cases id <;> decide

theorem isExperimenter_type (id : InternalId) :
    OXMType.isExperimenter id.type = id.isExperimenter := by
  cases id <;> decide

theorem size_pos (id : InternalId) : 0 < id.size := by
  cases id <;> decide

section

variable (regular : id.isExperimenter = false)

include regular

theorem lookupInfo_type : lookupInfo id.type = some id := by
  revert regular
  cases id <;> decide +kernel

theorem type_inj : other.type = id.type ↔ other = id := by
  constructor
  · intro same
    have foreign : other.isExperimenter = false := by
      rw [← isExperimenter_type, same, isExperimenter_type, regular]
    have found := lookupInfo_type foreign
    rw [same, lookupInfo_type regular, Option.some.injEq] at found
    exact found.symm
  · intro same
    rw [same]

theorem typeWithMask_inj : other.typeWithMask = id.typeWithMask ↔ other = id := by
  constructor
  · intro same
    have bare := congrArg OXMType.withoutMask same
    rw [withoutMask_typeWithMask, withoutMask_typeWithMask] at bare
    exact (type_inj regular).mp bare
  · intro same
    rw [same]

end

theorem type_ne_typeWithMask (id other : InternalId) : id.type ≠ other.typeWithMask := by
  intro same
  have mask := hasMask_type id
  rw [same, hasMask_typeWithMask] at mask
  cases mask

end

end Libofp.Match.Needs
