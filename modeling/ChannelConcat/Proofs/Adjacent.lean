import ChannelConcat.Proofs.BlockMove
import ChannelConcat.Proofs.Blocks

/-!
# Blocks side by side in memory

Where the cursors advance by the size of a block, the blocks of each source and all blocks at the
target lie side by side. A copy that stores no block into a source then leaves at the target the
changed blocks of all sources, one behind the other. Main statements: `avoids_of_disjoint`,
`load_copyInputs`.
-/

namespace ChannelConcat

open X86

/-- The first block of a source and the later ones. -/
theorem changeBlocks_succ {width count : Nat} {change : List Byte → List Byte}
    (bytes : List Byte) :
    changeBlocks width change (count + 1) bytes =
      change (bytes.take width) ++ changeBlocks width change count (bytes.drop width) := by
  rw [changeBlocks, changeBlocks, List.range_succ_eq_map, List.flatMap_cons, List.flatMap_map,
    Nat.zero_mul, List.drop_zero]
  congr 1
  simp only [List.drop_drop, Nat.succ_mul, Nat.add_comm]

namespace BlockMove

/-- Both cursors advance by the number of bytes of a block. -/
def Adjacent (move : BlockMove) : Prop :=
  move.stride = BitVec.ofNat 64 move.bytes

variable {move : BlockMove} {progress : Progress} {cursor : Address} {count first k : Nat}
  {a : Address} {entries : List TableEntry}

/-- As many strides are as many bytes as the blocks have together. -/
theorem Adjacent.mul_stride (h : move.Adjacent) (count : Nat) :
    BitVec.ofNat 64 count * move.stride = BitVec.ofNat 64 (count * move.bytes) := by
  rw [h, BitVec.ofNat_mul]

/-- Each block lies among the bytes of all blocks. -/
theorem Adjacent.contains (h : move.Adjacent) (hk : k < count)
    (hsize : count * move.bytes ≤ 2 ^ 64) (ha : (move.region cursor k).Contains a) :
    Region.Contains ⟨cursor, count * move.bytes⟩ a := by
  have hlast := Nat.mul_le_mul_right move.bytes (Nat.succ_le_of_lt hk)
  rw [Nat.succ_mul] at hlast
  rw [region, h.mul_stride] at ha
  exact Region.contains_of_contains_add _ ha hlast hsize

/-- Blocks avoid a region if their bytes together do. -/
theorem Adjacent.avoids_of_disjoint (h : move.Adjacent) (hsize : count * move.bytes ≤ 2 ^ 64)
    {other : Region} (hdisjoint : Region.Disjoint ⟨cursor, count * move.bytes⟩ other) :
    move.Avoids cursor count other :=
  fun _ hk a ha => hdisjoint a (h.contains hk hsize ha)

/-- The bytes of the blocks before are not among those of a later block. -/
theorem Adjacent.not_contains_of_lt (h : move.Adjacent) {before : Nat}
    (hsize : (before + (k + 1)) * move.bytes ≤ 2 ^ 64)
    (ha : Region.Contains ⟨cursor, before * move.bytes⟩ a) :
    ¬ (move.region (cursor + BitVec.ofNat 64 before * move.stride) k).Contains a := by
  rw [region_add, region, h.mul_stride]
  rw [Nat.add_mul, Nat.succ_mul] at hsize
  rw [Nat.add_mul]
  unfold Region.Contains at *
  have := cursor.isLt
  have := a.isLt
  simp only [BitVec.toNat_sub, BitVec.toNat_add, BitVec.toNat_ofNat] at *
  omega

/-- Bytes that change only where later blocks lie leave the blocks before them as they were. -/
theorem Adjacent.load_before (h : move.Adjacent) {memory other : Memory} (before : Nat)
    (hsize : (before + count) * move.bytes ≤ 2 ^ 64)
    (hother : ∀ a, (∀ k < count,
      ¬ (move.region (cursor + BitVec.ofNat 64 before * move.stride) k).Contains a) →
        other a = memory a) :
    other.load cursor (before * move.bytes) = memory.load cursor (before * move.bytes) := by
  refine Memory.load_congr fun a ha => hother a fun k hk => h.not_contains_of_lt ?_ ha
  exact Nat.le_trans (Nat.mul_le_mul_right _ (Nat.add_le_add_left hk before)) hsize

/-- A moved block is at the target with its bytes changed. -/
theorem load_copyBlock (hlength : move.KeepsLength) (hsize : move.bytes ≤ 2 ^ 64)
    (source : Address) (progress : Progress) :
    (move.copyBlock source progress).memory.load progress.target move.bytes =
      move.change (progress.memory.load source move.bytes) := by
  have hblock := hlength _ (Memory.length_load progress.memory source move.bytes)
  have hstored := Memory.load_store progress.memory progress.target (hblock ▸ hsize)
  rwa [hblock] at hstored

/-- Moving a block changes nothing that is disjoint from its place at the target. -/
theorem load_copyBlock_of_disjoint (hlength : move.KeepsLength) (source : Address)
    {start : Address} {bytes : Nat}
    (h : Region.Disjoint ⟨start, bytes⟩ ⟨progress.target, move.bytes⟩) :
    (move.copyBlock source progress).memory.load start bytes =
      progress.memory.load start bytes := by
  refine Memory.load_store_of_disjoint ?_
  rwa [hlength _ (Memory.length_load ..)]

/-- Moving the blocks of an input leaves at the target the changed blocks of its source, if none of
them is stored into the source. -/
theorem Adjacent.load_copyInput (h : move.Adjacent) (hlength : move.KeepsLength) {source : Address}
    (hsize : count * move.bytes ≤ 2 ^ 64)
    (hsource : Region.Disjoint ⟨progress.target, count * move.bytes⟩
      ⟨source, count * move.bytes⟩) :
    (move.copyInput count source progress).memory.load progress.target (count * move.bytes) =
      changeBlocks move.bytes move.change count
        (progress.memory.load source (count * move.bytes)) := by
  induction count generalizing source progress with
  | zero => rw [Nat.zero_mul]; rfl
  | succ count ih =>
      have htotal : (count + 1) * move.bytes = move.bytes + count * move.bytes := by
        rw [Nat.succ_mul, Nat.add_comm]
      rw [htotal] at hsize hsource
      -- The first block is stored, and the later ones are stored behind it.
      have hfirst : (move.copyInput count (source + move.stride)
          (move.copyBlock source progress)).memory.load progress.target move.bytes =
          move.change (progress.memory.load source move.bytes) := by
        rw [← load_copyBlock hlength (by omega) source progress, ← Nat.one_mul move.bytes]
        refine h.load_before 1 (by rwa [Nat.add_comm, htotal]) fun a ha => ?_
        rw [BitVec.one_mul] at ha
        exact copyInput_of_not_contains hlength _ ha
      -- The later blocks of the source are not where the first block was stored.
      have hlater : (move.copyBlock source progress).memory.load (source + move.stride)
          (count * move.bytes) = progress.memory.load (source + move.stride)
            (count * move.bytes) := by
        rw [h]
        exact load_copyBlock_of_disjoint hlength source fun a ha hstored => hsource a
          (Region.contains_of_le hstored (Nat.le_add_right ..))
          (Region.contains_of_contains_add _ ha (Nat.le_refl _) hsize)
      have hrest : Region.Disjoint ⟨progress.target + move.stride, count * move.bytes⟩
          ⟨source + move.stride, count * move.bytes⟩ := by
        rw [h]
        exact fun a htarget hcontains => hsource a
          (Region.contains_of_contains_add _ htarget (Nat.le_refl _) hsize)
          (Region.contains_of_contains_add _ hcontains (Nat.le_refl _) hsize)
      rw [htotal, Memory.load_add, Memory.load_add, changeBlocks_succ,
        List.take_left' (Memory.length_load ..), List.drop_left' (Memory.length_load ..), ← h,
        copyInput, hfirst, ← hlater]
      congr 1
      exact ih (by omega) hrest

/-- Moving the blocks of all inputs leaves at the target the changed blocks of all sources, one
behind the other, if no block is stored into a source. -/
theorem Adjacent.load_copyInputs (h : move.Adjacent) (hlength : move.KeepsLength)
    (progress : Progress) (hsize : blockTotal entries * move.bytes ≤ 2 ^ 64)
    (hsources : ∀ entry ∈ entries,
      Region.Disjoint ⟨progress.target, blockTotal entries * move.bytes⟩
        ⟨entry.source, repeats entry.count * move.bytes⟩) :
    (move.copyInputs entries progress).memory.load progress.target
        (blockTotal entries * move.bytes) =
      entries.flatMap fun entry => changeBlocks move.bytes move.change (repeats entry.count)
        (progress.memory.load entry.source (repeats entry.count * move.bytes)) := by
  induction entries generalizing progress with
  | nil => rw [blockTotal, List.map_nil, List.sum_nil, Nat.zero_mul]; rfl
  | cons entry entries ih =>
      have htotal : blockTotal (entry :: entries) * move.bytes =
          repeats entry.count * move.bytes + blockTotal entries * move.bytes := by
        rw [blockTotal, List.map_cons, List.sum_cons, Nat.add_mul]
        rfl
      rw [htotal] at hsize hsources
      have hdisjoint := hsources entry List.mem_cons_self
      have htarget : (move.copyInput (repeats entry.count) entry.source progress).target =
          progress.target + BitVec.ofNat 64 (repeats entry.count) * move.stride :=
        target_copyInput ..
      -- The blocks of the first input are stored, and all others are stored behind them.
      have hfirst : (move.copyInputs entries (move.copyInput (repeats entry.count) entry.source
          progress)).memory.load progress.target (repeats entry.count * move.bytes) =
          changeBlocks move.bytes move.change (repeats entry.count)
            (progress.memory.load entry.source (repeats entry.count * move.bytes)) := by
        rw [h.load_before (repeats entry.count) (by rwa [Nat.add_mul]) fun a ha =>
          copyInputs_of_not_contains hlength (htarget ▸ ha)]
        exact h.load_copyInput hlength (by omega) fun a ha => hdisjoint a
          (Region.contains_of_le ha (Nat.le_add_right ..))
      -- No block of the first input is stored into a later source.
      have hlater (later : TableEntry) (hmem : later ∈ entries) :
          (move.copyInput (repeats entry.count) entry.source progress).memory.load later.source
            (repeats later.count * move.bytes) =
          progress.memory.load later.source (repeats later.count * move.bytes) := by
        refine Memory.load_congr fun a ha =>
          copyInput_of_not_contains hlength _ fun k hk hstored => ?_
        exact hsources later (List.mem_cons_of_mem _ hmem) a
          (Region.contains_of_le (h.contains hk (by omega) hstored) (Nat.le_add_right ..)) ha
      have hrest := @ih (move.copyInput (repeats entry.count) entry.source progress)
        (by omega) fun later hmem a ha => by
          rw [htarget, h.mul_stride] at ha
          exact hsources later (List.mem_cons_of_mem _ hmem) a
            (Region.contains_of_contains_add _ ha (Nat.le_refl _) hsize)
      rw [htarget, h.mul_stride] at hrest
      rw [htotal, Memory.load_add, List.flatMap_cons, copyInputs, hfirst, hrest]
      rw [List.flatMap_def, List.flatMap_def,
        List.map_congr_left fun later hmem => congrArg _ (hlater later hmem)]

end BlockMove

end ChannelConcat
