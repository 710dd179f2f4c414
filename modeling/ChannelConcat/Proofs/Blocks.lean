import ChannelConcat.Proofs.Lanes
import ChannelConcat.Transfer

/-!
# Blocks side by side

Where blocks lie side by side, in the sources and at the target, copying them block by block amounts
to changing the bytes of each source block by block and putting the results one behind the other.
Main statements: `changeBlocks_flatMap_toBytes`, `copyBlocks_eq`.
-/

namespace ChannelConcat

/-- The first blocks of the given width, each changed, one behind the other. -/
def changeBlocks (width : Nat) (change : List Byte → List Byte) (count : Nat) (bytes : List Byte) :
    List Byte :=
  (List.range count).flatMap fun k => change ((bytes.drop (k * width)).take width)

/-- Every block of whole blocks has their width. -/
theorem length_block {width count : Nat} {bytes : List Byte} (hbytes : bytes.length = count * width)
    {k : Nat} (hk : k < count) : ((bytes.drop (k * width)).take width).length = width := by
  have hlast : (k + 1) * width ≤ count * width := Nat.mul_le_mul_right _ hk
  rw [Nat.succ_mul] at hlast
  rw [List.length_take, List.length_drop]
  omega

/-- Blocks that keep their length take as many bytes as before. -/
theorem length_changeBlocks {width count : Nat} {change : List Byte → List Byte}
    {bytes : List Byte} (hchange : ∀ block, block.length = width → (change block).length = width)
    (hbytes : bytes.length = count * width) :
    (changeBlocks width change count bytes).length = count * width := by
  rw [changeBlocks, length_flatMap_rows, List.length_range]
  intro k hk
  exact hchange _ (length_block hbytes (List.mem_range.1 hk))

/-- Whole blocks are changed alike by what agrees on blocks of their width. -/
theorem changeBlocks_congr {width count : Nat} {change other : List Byte → List Byte}
    {bytes : List Byte} (hchange : ∀ block, block.length = width → change block = other block)
    (hbytes : bytes.length = count * width) :
    changeBlocks width change count bytes = changeBlocks width other count bytes := by
  refine congrArg List.flatten (List.map_congr_left ?_)
  intro k hk
  exact hchange _ (length_block hbytes (List.mem_range.1 hk))

/-- Elements are changed block by block as they are changed one by one. -/
theorem changeBlocks_flatMap_toBytes {bits : Nat} {scalar : Scalar} {relu : Bool}
    {selection : Selection} (h : select bits scalar.elem relu = .ok selection) {count block : Nat}
    {values : List scalar.Value} (hvalues : values.length = count * block) :
    changeBlocks (block * scalar.bytes) selection.onBlock count
        (values.flatMap (Word.toBytes scalar.bytes)) =
      (values.map (if relu then scalar.clamp else id)).flatMap (Word.toBytes scalar.bytes) := by
  have hblock (k : Nat) :
      ((values.flatMap (Word.toBytes scalar.bytes)).drop (k * (block * scalar.bytes))).take
        (block * scalar.bytes) =
      ((values.drop (k * block)).take block).flatMap (Word.toBytes scalar.bytes) := by
    rw [← Nat.mul_assoc, take_drop_flatMap_toBytes]
  simp only [changeBlocks, hblock, Selection.onBlock_flatMap_toBytes h]
  rw [← List.flatMap_assoc, ← List.map_flatMap, flatMap_chunks hvalues]

/-- Items numbered along a list of the same length are the items beside those of the list. -/
theorem map_getD_zipIdx {α β : Type} {items : List α} {others : List β} (default : β)
    (h : items.length = others.length) :
    (items.zipIdx.map fun entry => (entry.1, others.getD entry.2 default)) = items.zip others := by
  apply List.ext_getElem (by simp [h])
  intro k hk hk'
  rw [List.length_map, List.length_zipIdx] at hk
  simp [List.getD_eq_getElem?_getD, List.getElem?_eq_getElem (h ▸ hk)]

/-- The block that an entry of `blockIndices` names, as it is stored. -/
def storedBlock (selection : Selection) (sources : List (Array Byte)) (entry : Nat × Nat) :
    List Byte :=
  selection.onBlock (((sources.getD entry.1 #[]).toList.drop
    (entry.2 * selection.width.bytes)).take selection.width.bytes)

/-- Where the stride is the width of a block, the transfers store all blocks side by side. -/
theorem copyBlocks_eq_foldl {selection : Selection} {bounds : LoopBounds}
    {counts : List (BitVec 32)} (hinputs : repeats bounds.inputs = counts.length)
    (hstride : bounds.stride.toInt = selection.width.bytes) (sources : List (Array Byte))
    (target : Array Byte) :
    copyBlocks selection bounds counts sources target =
      (blockIndices counts.length counts).zipIdx.foldl (fun target entry =>
        Buffer.overwrite target (entry.2 * selection.width.bytes)
          (storedBlock selection sources entry.1)) target := by
  rw [copyBlocks, transfers, List.foldl_map, hinputs, hstride]
  simp only [Transfer.perform, storedBlock, ← Int.natCast_mul, Int.toNat_natCast,
    Buffer.stretch_eq, Nat.add_sub_cancel_left]

/-- The stored blocks of all inputs, one behind the other. -/
theorem flatMap_storedBlock (selection : Selection) {counts : List (BitVec 32)}
    {sources : List (Array Byte)} (hlength : counts.length = sources.length) :
    (blockIndices counts.length counts).flatMap (storedBlock selection sources) =
      (counts.zip sources).flatMap fun pair =>
        changeBlocks selection.width.bytes selection.onBlock (repeats pair.1) pair.2.toList := by
  rw [blockIndices, List.take_length, List.flatMap_assoc, ← map_getD_zipIdx #[] hlength,
    List.flatMap_map]
  simp only [List.flatMap_map]
  rfl

/-- Copying all blocks of sources into a target of the same size changes each source block by
block. -/
theorem copyBlocks_eq {selection : Selection} {bounds : LoopBounds} {counts : List (BitVec 32)}
    {sources : List (Array Byte)} {target : Array Byte}
    (hinputs : repeats bounds.inputs = counts.length) (hlength : counts.length = sources.length)
    (hstride : bounds.stride.toInt = selection.width.bytes)
    (hsources : ∀ pair ∈ counts.zip sources,
      pair.2.size = repeats pair.1 * selection.width.bytes)
    (htarget : target.size = (sources.map Array.size).sum) :
    copyBlocks selection bounds counts sources target =
      ((counts.zip sources).flatMap fun pair =>
        changeBlocks selection.width.bytes selection.onBlock (repeats pair.1)
          pair.2.toList).toArray := by
  have hchange (block : List Byte) (h : block.length = selection.width.bytes) :
      (selection.onBlock block).length = selection.width.bytes :=
    (selection.length_onBlock (h ▸ selection.width.four_dvd_bytes)).trans h
  have hblocks : ∀ entry ∈ blockIndices counts.length counts,
      (storedBlock selection sources entry).length = selection.width.bytes := by
    intro entry hentry
    simp only [blockIndices, List.take_length, List.mem_flatMap, List.mem_map,
      List.mem_range] at hentry
    obtain ⟨input, hinput, k, hk, rfl⟩ := hentry
    have hpair : (input.1, sources.getD input.2 #[]) ∈ counts.zip sources := by
      rw [← map_getD_zipIdx #[] hlength]
      exact List.mem_map_of_mem hinput
    have hlast := Nat.mul_le_mul_right selection.width.bytes (Nat.succ_le_of_lt hk)
    have hsize := hsources _ hpair
    simp only [Nat.succ_mul] at hlast hsize
    refine hchange _ ?_
    simp only [List.length_take, List.length_drop, Array.length_toList, hsize]
    omega
  rw [copyBlocks_eq_foldl hinputs hstride, Buffer.foldl_zipIdx_overwrite _ hblocks,
    flatMap_storedBlock selection hlength, Nat.zero_mul, Buffer.overwrite_eq_toArray]
  have hlengths (pair : BitVec 32 × Array Byte) (hpair : pair ∈ counts.zip sources) :
      (changeBlocks selection.width.bytes selection.onBlock (repeats pair.1)
        pair.2.toList).length = pair.2.size := by
    rw [length_changeBlocks hchange, hsources pair hpair]
    exact hsources pair hpair
  have hsizes : sources.map Array.size = (counts.zip sources).map fun pair => pair.2.size := by
    rw [← Function.comp_def Array.size Prod.snd, ← List.map_map,
      List.map_snd_zip (Nat.le_of_eq hlength.symm)]
  rw [List.length_flatMap, List.map_congr_left hlengths, htarget, hsizes]

end ChannelConcat
