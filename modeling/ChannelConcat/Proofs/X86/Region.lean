import ChannelConcat.X86.State
import Mathlib.Algebra.Ring.Nat

/-!
# Regions of memory

A region is a stretch of memory, possibly across the end of the addresses. Loads see only the bytes
of their region and stores change only those of theirs. Main statements: `Memory.load_congr`,
`Memory.store_of_not_contains`, `Region.Apart.disjoint`.
-/

namespace ChannelConcat.X86

/-- A stretch of memory: its first address and its number of bytes. -/
structure Region where
  start : Address
  bytes : Nat
  deriving DecidableEq

namespace Region

/-- The address lies in the region. -/
def Contains (region : Region) (address : Address) : Prop :=
  (address - region.start).toNat < region.bytes

/-- Containment is decidable by comparing the distance from the start. -/
instance (region : Region) (address : Address) : Decidable (region.Contains address) :=
  inferInstanceAs (Decidable (_ < _))

/-- No address lies in both regions. -/
def Disjoint (first second : Region) : Prop :=
  ∀ address, first.Contains address → ¬ second.Contains address

/-- One of the regions is empty, or each starts past the end of the other, counted from its
start. -/
def Apart (first second : Region) : Prop :=
  first.bytes = 0 ∨ second.bytes = 0 ∨
    first.bytes ≤ (second.start - first.start).toNat ∧
      second.bytes ≤ (first.start - second.start).toNat

/-- Whether regions are apart is decidable by comparing their distances. -/
instance (first second : Region) : Decidable (first.Apart second) :=
  inferInstanceAs (Decidable (_ ∨ _ ∨ _ ∧ _))

/-- Regions that are apart have no address in common. -/
theorem Apart.disjoint {first second : Region} (h : first.Apart second) :
    first.Disjoint second := by
  intro address hfirst hsecond
  unfold Contains at hfirst hsecond
  unfold Apart at h
  have := first.start.isLt
  have := second.start.isLt
  have := address.isLt
  simp only [BitVec.toNat_sub] at *
  omega

/-- An offset past the end of the addresses only leads back into the region. -/
theorem contains_add (region : Region) {offset : Nat} (h : offset < region.bytes) :
    region.Contains (region.start + BitVec.ofNat 64 offset) := by
  rw [Contains, BitVec.add_comm, BitVec.add_sub_cancel, BitVec.toNat_ofNat]
  exact Nat.lt_of_le_of_lt (Nat.mod_le ..) h

/-- The front of a region lies in it. -/
theorem contains_of_le {start address : Address} {bytes total : Nat}
    (h : Contains ⟨start, bytes⟩ address) (hle : bytes ≤ total) :
    Contains ⟨start, total⟩ address :=
  Nat.lt_of_lt_of_le h hle

/-- A part of a region lies in it. -/
theorem contains_of_contains_add {start address : Address} {bytes total : Nat} (offset : Nat)
    (h : Contains ⟨start + BitVec.ofNat 64 offset, bytes⟩ address) (htotal : offset + bytes ≤ total)
    (hsize : total ≤ 2 ^ 64) : Contains ⟨start, total⟩ address := by
  unfold Contains at *
  have := start.isLt
  have := address.isLt
  simp only [BitVec.toNat_sub, BitVec.toNat_add, BitVec.toNat_ofNat] at *
  omega

/-- A region that has no address in common with one that is not empty is no longer than all
addresses. -/
theorem Disjoint.bytes_le {first second : Region} (h : first.Disjoint second)
    (hpos : 0 < second.bytes) : first.bytes ≤ 2 ^ 64 := by
  refine Nat.le_of_lt (Nat.lt_of_not_le fun hle => h second.start ?_ ?_)
  · exact Nat.lt_of_lt_of_le (second.start - first.start).isLt hle
  · rw [Contains, BitVec.sub_self]
    exact hpos

end Region

namespace Memory

variable {memory other : Memory} {address : Address}

/-- A load depends only on the bytes of its region. -/
theorem load_congr {count : Nat}
    (h : ∀ a, Region.Contains ⟨address, count⟩ a → memory a = other a) :
    memory.load address count = other.load address count := by
  refine List.map_congr_left fun k hk => h _ ?_
  exact Region.contains_add ⟨address, count⟩ (List.mem_range.1 hk)

/-- A store changes only the bytes of its region. -/
theorem store_of_not_contains {bytes : List Byte} {a : Address}
    (h : ¬ Region.Contains ⟨address, bytes.length⟩ a) : memory.store address bytes a = memory a :=
  store_outside (Nat.le_of_not_lt h)

/-- The byte that a store puts at an address does not depend on what the memory held. -/
theorem store_congr {bytes : List Byte} {a : Address} (h : memory a = other a) :
    memory.store address bytes a = other.store address bytes a := by
  simp only [store, h]

/-- A load from a region that a store does not touch sees what it saw before. -/
theorem load_store_of_disjoint {bytes : List Byte} {start : Address} {count : Nat}
    (h : Region.Disjoint ⟨start, count⟩ ⟨address, bytes.length⟩) :
    (memory.store address bytes).load start count = memory.load start count :=
  load_congr fun a ha => store_of_not_contains (h a ha)

/-- A load from where bytes were stored gives these bytes. -/
theorem load_store (memory : Memory) (address : Address) {bytes : List Byte}
    (hsize : bytes.length ≤ 2 ^ 64) :
    (memory.store address bytes).load address bytes.length = bytes := by
  apply List.ext_getElem (length_load ..)
  intro k hk hk'
  simp only [load, List.getElem_map, List.getElem_range]
  exact store_inside hk' hsize

/-- A long load is two loads, one behind the other. -/
theorem load_add (memory : Memory) (address : Address) (first second : Nat) :
    memory.load address (first + second) =
      memory.load address first ++ memory.load (address + BitVec.ofNat 64 first) second := by
  simp only [load, List.range_add, List.map_append, List.map_map]
  congr 1
  refine List.map_congr_left fun k _ => ?_
  rw [Function.comp_apply, BitVec.ofNat_add, BitVec.add_assoc]

end Memory

end ChannelConcat.X86
