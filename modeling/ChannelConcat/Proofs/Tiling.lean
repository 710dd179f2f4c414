import ChannelConcat.Proofs.Adjacent

/-!
# Accesses side by side

Where the cursors advance by the size of a block, a copy loads the blocks of each source side by
side, and stores all blocks side by side: its stores tile the target. Main definition:
`Region.Tiles`. Main statements: `BlockMove.Adjacent.tiles_inputAccesses`,
`BlockMove.Adjacent.within_of_mem_blockAccesses`.
-/

namespace ChannelConcat

open X86

namespace X86

namespace Region

/-- The region lies between two addresses and does not wrap around. -/
def Within (region : Region) (low high : Nat) : Prop :=
  low ≤ region.start.toNat ∧ region.start.toNat + region.bytes ≤ high

/-- The regions follow each other from one address up to another, and none of them is empty. -/
def Tiles : List Region → Nat → Nat → Prop
  | [], low, high => low = high
  | region :: regions, low, high =>
      region.start.toNat = low ∧ 0 < region.bytes ∧ Tiles regions (low + region.bytes) high

variable {regions more : List Region} {low middle high : Nat}

/-- Tiled stretches side by side are one tiled stretch. -/
theorem Tiles.append (h : Tiles regions low middle) (hmore : Tiles more middle high) :
    Tiles (regions ++ more) low high := by
  induction regions generalizing low with
  | nil => exact Eq.symm h ▸ hmore
  | cons region regions ih => exact ⟨h.1, h.2.1, ih h.2.2⟩

/-- A tiled stretch does not end before it begins. -/
theorem Tiles.le (h : Tiles regions low high) : low ≤ high := by
  induction regions generalizing low with
  | nil => exact Nat.le_of_eq h
  | cons region regions ih => exact Nat.le_trans (Nat.le_add_right ..) (ih h.2.2)

/-- A tile lies in the stretch and is not empty. -/
theorem Tiles.within (h : Tiles regions low high) {region : Region} (hregion : region ∈ regions) :
    region.Within low high ∧ 0 < region.bytes := by
  induction regions generalizing low with
  | nil => cases hregion
  | cons first regions ih =>
      obtain ⟨hstart, hpos, hrest⟩ := h
      rcases List.mem_cons.1 hregion with rfl | hlater
      · exact ⟨⟨Nat.le_of_eq hstart.symm, hstart ▸ hrest.le⟩, hpos⟩
      · obtain ⟨⟨hlow, hhigh⟩, hbytes⟩ := ih hrest hlater
        exact ⟨⟨Nat.le_trans (Nat.le_add_right ..) hlow, hhigh⟩, hbytes⟩

/-- Each tile ends before all later ones begin. -/
theorem Tiles.pairwise (h : Tiles regions low high) :
    regions.Pairwise fun first second =>
      first.start.toNat + first.bytes ≤ second.start.toNat := by
  induction regions generalizing low with
  | nil => exact .nil
  | cons region regions ih =>
      obtain ⟨hstart, -, hrest⟩ := h
      refine List.pairwise_cons.2 ⟨fun later hlater => ?_, ih hrest⟩
      rw [hstart]
      exact (hrest.within hlater).1.1

/-- Every address of the stretch lies in a tile. -/
theorem Tiles.exists_mem (h : Tiles regions low high) {a : Nat} (hlow : low ≤ a)
    (hhigh : a < high) :
    ∃ region ∈ regions, region.start.toNat ≤ a ∧ a < region.start.toNat + region.bytes := by
  induction regions generalizing low with
  | nil => exact absurd (Nat.le_trans (Nat.le_of_eq (Eq.symm h)) hlow) (Nat.not_le.2 hhigh)
  | cons region regions ih =>
      obtain ⟨hstart, -, hrest⟩ := h
      by_cases hfirst : a < low + region.bytes
      · exact ⟨region, List.mem_cons_self, hstart ▸ hlow, hstart ▸ hfirst⟩
      · obtain ⟨later, hlater, hcontains⟩ := ih hrest (Nat.le_of_not_lt hfirst)
        exact ⟨later, List.mem_cons_of_mem _ hlater, hcontains⟩

end Region

/-- The regions that are stored to, in order. -/
def stores (trace : List Access) : List Region :=
  (trace.filter fun access => access.kind = .store).map Access.region

/-- The stores of two traces, one after the other. -/
theorem stores_append (trace more : List Access) :
    stores (trace ++ more) = stores trace ++ stores more := by
  rw [stores, List.filter_append, List.map_append]
  rfl

/-- An address that is some bytes behind another, where the addresses do not end between. -/
theorem toNat_add_ofNat {base : Address} {offset : Nat} (h : base.toNat + offset < 2 ^ 64) :
    (base + BitVec.ofNat 64 offset).toNat = base.toNat + offset := by
  rw [BitVec.toNat_add, BitVec.toNat_ofNat]
  omega

end X86

namespace BlockMove

variable {move : BlockMove} {base target : Address} {count input offset first : Nat}
  {entries : List TableEntry} {access : Access}

/-- The stores of an input are those of its blocks in turn. -/
theorem stores_blockAccesses (move : BlockMove) (input count : Nat) (source target : Address) :
    stores (move.blockAccesses input count source target) =
      (List.range count).map (move.region target) := by
  induction count generalizing source target with
  | zero => rfl
  | succ count ih =>
      have hrest : stores (move.blockAccesses input (count + 1) source target) =
          ⟨target, move.bytes⟩ ::
            stores (move.blockAccesses input count (source + move.stride) (target + move.stride)) :=
        rfl
      have hnext : (move.region (target + move.stride)) = move.region target ∘ Nat.succ :=
        funext fun k => region_succ move target k
      rw [hrest, ih, hnext, List.range_succ_eq_map, List.map_cons, List.map_map, region_zero]

/-- The stores of all inputs are those of all blocks in turn. -/
theorem stores_inputAccesses (move : BlockMove) (first : Nat) (entries : List TableEntry)
    (target : Address) :
    stores (move.inputAccesses first entries target) =
      (List.range (blockTotal entries)).map (move.region target) := by
  induction entries generalizing first target with
  | nil => rfl
  | cons entry entries ih =>
      have htotal : blockTotal (entry :: entries) = repeats entry.count + blockTotal entries := rfl
      have hnext (count : Nat) : move.region (target + BitVec.ofNat 64 count * move.stride) =
          move.region target ∘ (count + ·) :=
        funext fun k => region_add move target count k
      rw [inputAccesses, stores_append, stores_blockAccesses, ih, htotal, List.range_add,
        List.map_append, List.map_map, hnext]

/-- A cursor advances by the bytes of a block. -/
theorem Adjacent.add_stride (h : move.Adjacent) (base : Address) (offset count : Nat) :
    base + BitVec.ofNat 64 offset + BitVec.ofNat 64 count * move.stride =
      base + BitVec.ofNat 64 (offset + count * move.bytes) := by
  rw [h.mul_stride, BitVec.add_assoc, ← BitVec.ofNat_add]

/-- The cursor of the next block. -/
theorem Adjacent.add_stride_one (h : move.Adjacent) (base : Address) (offset : Nat) :
    base + BitVec.ofNat 64 offset + move.stride =
      base + BitVec.ofNat 64 (offset + move.bytes) := by
  rw [h, BitVec.add_assoc, ← BitVec.ofNat_add]

/-- The accesses for the blocks of an input are for this input and have the bytes of a block. -/
theorem input_of_mem_blockAccesses {source : Address}
    (h : access ∈ move.blockAccesses input count source target) :
    access.input = input ∧ access.region.bytes = move.bytes := by
  induction count generalizing source target with
  | zero => cases h
  | succ count ih =>
      rw [blockAccesses, List.mem_cons, List.mem_cons] at h
      rcases h with rfl | rfl | hlater
      · exact ⟨rfl, rfl⟩
      · exact ⟨rfl, rfl⟩
      · exact ih hlater

/-- The loads of an input lie among the bytes of its blocks. -/
theorem Adjacent.within_of_mem_blockAccesses (h : move.Adjacent) (hpos : 0 < move.bytes)
    (hfits : base.toNat + (offset + count * move.bytes) ≤ 2 ^ 64)
    (hmem : access ∈ move.blockAccesses input count (base + BitVec.ofNat 64 offset) target)
    (hload : access.kind = .load) :
    access.region.Within (base.toNat + offset) (base.toNat + (offset + count * move.bytes)) := by
  induction count generalizing offset target with
  | zero => cases hmem
  | succ count ih =>
      rw [Nat.succ_mul] at hfits ⊢
      rw [blockAccesses, List.mem_cons, List.mem_cons, h.add_stride_one] at hmem
      rcases hmem with rfl | rfl | hlater
      · rw [Region.Within, toNat_add_ofNat (by omega)]
        show _ ∧ base.toNat + offset + move.bytes ≤ _
        omega
      · cases hload
      · obtain ⟨hlow, hhigh⟩ := ih (by omega) hlater
        exact ⟨by omega, by omega⟩

/-- The stores of an input tile the bytes of its blocks at the target. -/
theorem Adjacent.tiles_blockAccesses (h : move.Adjacent) (hpos : 0 < move.bytes)
    (hfits : base.toNat + (offset + count * move.bytes) ≤ 2 ^ 64) (input : Nat)
    (source : Address) :
    Region.Tiles
      (stores (move.blockAccesses input count source (base + BitVec.ofNat 64 offset)))
      (base.toNat + offset) (base.toNat + (offset + count * move.bytes)) := by
  induction count generalizing offset source with
  | zero => rw [Nat.zero_mul, Nat.add_zero]; rfl
  | succ count ih =>
      rw [Nat.succ_mul] at hfits ⊢
      rw [blockAccesses, h.add_stride_one]
      refine ⟨toNat_add_ofNat (by omega), hpos, ?_⟩
      have hrest := @ih (offset + move.bytes) (by omega) (source + move.stride)
      rwa [Nat.add_assoc, Nat.add_comm move.bytes, ← Nat.add_assoc] at hrest

/-- The stores of all inputs tile the bytes of all blocks at the target. -/
theorem Adjacent.tiles_inputAccesses (h : move.Adjacent) (hpos : 0 < move.bytes)
    (hfits : base.toNat + (offset + blockTotal entries * move.bytes) ≤ 2 ^ 64) (first : Nat) :
    Region.Tiles
      (stores (move.inputAccesses first entries (base + BitVec.ofNat 64 offset)))
      (base.toNat + offset) (base.toNat + (offset + blockTotal entries * move.bytes)) := by
  induction entries generalizing offset first with
  | nil => rw [blockTotal, List.map_nil, List.sum_nil, Nat.zero_mul, Nat.add_zero]; rfl
  | cons entry entries ih =>
      have htotal : blockTotal (entry :: entries) * move.bytes =
          repeats entry.count * move.bytes + blockTotal entries * move.bytes := by
        rw [blockTotal, List.map_cons, List.sum_cons, Nat.add_mul]
        rfl
      rw [htotal] at hfits ⊢
      rw [inputAccesses, stores_append, h.add_stride]
      have hrest := @ih (offset + repeats entry.count * move.bytes) (by omega) (first + 1)
      rw [Nat.add_assoc offset] at hrest
      exact (h.tiles_blockAccesses hpos (by omega) first entry.source).append hrest

/-- Each access is for the blocks of one of the inputs. -/
theorem exists_of_mem_inputAccesses (h : access ∈ move.inputAccesses first entries target) :
    ∃ i entry cursor, entries[i]? = some entry ∧
      access ∈ move.blockAccesses (first + i) (repeats entry.count) entry.source cursor := by
  induction entries generalizing first target with
  | nil => cases h
  | cons entry entries ih =>
      rw [inputAccesses, List.mem_append] at h
      rcases h with hfirst | hlater
      · exact ⟨0, entry, target, rfl, hfirst⟩
      · obtain ⟨i, later, cursor, hentry, hmem⟩ := ih hlater
        refine ⟨i + 1, later, cursor, hentry, ?_⟩
        rwa [Nat.add_assoc, Nat.add_comm 1] at hmem

end BlockMove

end ChannelConcat
