import ChannelConcat.Concat.Execute
import ChannelConcat.Proofs.Blocks
import ChannelConcat.Proofs.Planning
import ChannelConcat.Proofs.Rows

/-!
# Rows of generated routines

A routine for a plan fills a row with the matching rows of the sources side by side, as the copy
element by element does. Main statement: `Concat.generatedRow_eq`.
-/

namespace ChannelConcat

/-- A map that always succeeds gives the results of all items. -/
theorem mapM_eq_ok {α β : Type} {f : α → Except Fault β} {g : α → β} {items : List α}
    (h : ∀ item ∈ items, f item = .ok (g item)) : items.mapM f = .ok (items.map g) := by
  induction items with
  | nil => rfl
  | cons item items ih =>
      rw [List.mapM_cons, h item List.mem_cons_self,
        ih fun later hlater => h later (.tail _ hlater)]
      rfl

namespace Concat

variable {maxBits block index : Nat} {inputs : List Tensor} {output : Tensor} {relu : Bool}
  {routine : Routine} {scalar : Scalar} {sources : List (Array scalar.Value × Nat)}

/-- The block counter for a number of channels. -/
def channelBlocks (block channels : Nat) : BitVec 32 :=
  BitVec.ofNat 32 (channels / block)

/-- The source has the row, and the row is whole blocks that fit into a block counter. -/
structure HasBlocks (block index : Nat) (source : Array scalar.Value × Nat) : Prop where
  row : Buffer.HasRow source.2 index source.1
  whole : source.2 % block = 0
  few : source.2 / block < 2 ^ 31

/-- The bytes of a row of a source. -/
def rowBytes (scalar : Scalar) (index : Nat) (source : Array scalar.Value × Nat) : Array Byte :=
  Buffer.bytesOf scalar.bytes (Buffer.rowItems source.1 source.2 index)

/-- The bytes of a row take the place of its elements. -/
theorem size_rowBytes {source : Array scalar.Value × Nat} (h : HasBlocks block index source) :
    (rowBytes scalar index source).size = source.2 * scalar.bytes := by
  rw [rowBytes, Buffer.bytesOf, List.size_toArray, length_flatMap_toBytes,
    Buffer.length_rowItems h.row]

/-- The bytes of the rows of all sources take the place of all their elements. -/
theorem sum_size_rowBytes (hsources : ∀ source ∈ sources, HasBlocks block index source) :
    ((sources.map (rowBytes scalar index)).map Array.size).sum =
      (sources.map Prod.snd).sum * scalar.bytes := by
  induction sources with
  | nil => rw [List.map_nil, List.map_nil, List.map_nil, List.sum_nil, Nat.zero_mul]
  | cons source sources ih =>
      simp only [List.map_cons, List.sum_cons, Nat.add_mul,
        size_rowBytes (hsources source List.mem_cons_self),
        ih fun later hlater => hsources later (.tail _ hlater)]

/-- The blocks that are counted for a source are its whole row. -/
theorem HasBlocks.repeats_mul {source : Array scalar.Value × Nat}
    (h : HasBlocks block index source) :
    repeats (channelBlocks block source.2) * block = source.2 := by
  rw [channelBlocks, repeats_ofNat h.few]
  exact Nat.div_mul_cancel (Nat.dvd_of_mod_eq_zero h.whole)

/-- The counted blocks of a source take the bytes of its row. -/
theorem HasBlocks.repeats_mul_bytes {source : Array scalar.Value × Nat}
    (h : HasBlocks block index source) :
    repeats (channelBlocks block source.2) * (block * scalar.bytes) =
      (rowBytes scalar index source).size := by
  rw [size_rowBytes h, ← Nat.mul_assoc, h.repeats_mul]

/-- The changed blocks of the rows of all sources are the bytes of the clamped rows. -/
theorem flatMap_changeBlocks_rowBytes {bits : Nat} {selection : Selection}
    (hselect : select bits scalar.elem relu = .ok selection)
    (hsources : ∀ source ∈ sources, HasBlocks block index source) :
    (sources.flatMap fun source => changeBlocks (block * scalar.bytes) selection.onBlock
      (repeats (channelBlocks block source.2)) (rowBytes scalar index source).toList) =
      (interleaved (if relu then scalar.clamp else id) sources index).flatMap
        (Word.toBytes scalar.bytes) := by
  rw [interleaved, List.flatMap_assoc, List.flatMap_def, List.flatMap_def]
  refine congrArg List.flatten (List.map_congr_left fun source hsource => ?_)
  refine changeBlocks_flatMap_toBytes hselect ?_
  rw [Buffer.length_rowItems (hsources source hsource).row, (hsources source hsource).repeats_mul]

/-- The instructions that a plan selects for the elements of its output. -/
theorem exists_select_of_settled {planned : Spec}
    (h : Plan.Settled maxBits inputs output relu planned block)
    (helem : scalar.elem = output.elem) :
    ∃ selection, select planned.bits planned.elem planned.relu = .ok selection ∧
      select planned.bits scalar.elem relu = .ok selection ∧
      selection.width.bytes = block * scalar.bytes := by
  obtain ⟨selection, hselect, hbytes, -⟩ := h.exists_select
  refine ⟨selection, hselect, ?_, by rw [hbytes, Scalar.bytes, helem]⟩
  rw [helem]
  rw [h.spec_eq] at hselect ⊢
  exact hselect

/-- The bytes that a planned routine makes of rows of whole blocks are those of the clamped rows. -/
theorem copy_eq (h : Plan.Settled maxBits inputs output relu routine.spec block)
    (helem : scalar.elem = output.elem) (hlength : sources.length = inputs.length)
    (hnonempty : inputs ≠ []) (hsources : ∀ source ∈ sources, HasBlocks block index source)
    {old : Array Byte} (hold : old.size = (sources.map Prod.snd).sum * scalar.bytes) :
    routine.copy (sources.map fun source => channelBlocks block source.2)
        (sources.map (rowBytes scalar index)) old =
      .ok ((interleaved (if relu then scalar.clamp else id) sources index).flatMap
        (Word.toBytes scalar.bytes)).toArray := by
  obtain ⟨selection, hselect, hchange, hbytes⟩ := exists_select_of_settled h helem
  obtain ⟨bounds, hbounds, hrepeats, hstride⟩ := h.exists_loopBounds
  have hcopy : copyBlocks selection bounds
      (sources.map fun source => channelBlocks block source.2)
      (sources.map (rowBytes scalar index)) old = _ :=
    copyBlocks_eq (by rw [hrepeats, List.length_map, hlength])
      (by rw [List.length_map, List.length_map])
      (by rw [hstride hnonempty, hbytes, Scalar.bytes, helem])
      (by
        rw [List.zip_map']
        intro pair hpair
        obtain ⟨source, hsource, rfl⟩ := List.mem_map.1 hpair
        rw [hbytes, (hsources source hsource).repeats_mul_bytes])
      (by rw [hold, sum_size_rowBytes hsources])
  rw [Routine.copy, hselect, hbounds]
  show Except.ok (copyBlocks _ _ _ _ _) = _
  rw [hcopy, List.zip_map', List.flatMap_map, hbytes]
  congr 2
  exact flatMap_changeBlocks_rowBytes hchange hsources

/-- A planned routine fills a row with the rows of the sources side by side, as the copy element by
element does. -/
theorem generatedRow_eq (h : Plan.Settled maxBits inputs output relu routine.spec block)
    (helem : scalar.elem = output.elem) (hlength : sources.length = inputs.length)
    (hnonempty : inputs ≠ []) (hsources : ∀ source ∈ sources, HasBlocks block index source)
    {offset : Nat} {target : Array scalar.Value}
    (htarget : offset + (sources.map Prod.snd).sum ≤ target.size) :
    generatedRow routine (sources.map fun source => channelBlocks block source.2) scalar sources
        (sources.map Prod.snd).sum index offset target =
      ⟨Buffer.overwrite target offset
        (interleaved (if relu then scalar.clamp else id) sources index), none⟩ := by
  have hrows : (sources.mapM fun source => Buffer.row source.1 source.2 index) =
      .ok (sources.map fun source => Buffer.rowItems source.1 source.2 index) :=
    mapM_eq_ok fun source hsource => Buffer.row_eq_ok (hsources source hsource).row
  have hold : (Buffer.bytesOf scalar.bytes (Buffer.stretch target offset
      (offset + (sources.map Prod.snd).sum))).size =
      (sources.map Prod.snd).sum * scalar.bytes := by
    rw [Buffer.bytesOf, List.size_toArray, length_flatMap_toBytes, Buffer.stretch_eq,
      List.length_take, List.length_drop, Array.length_toList, Nat.add_sub_cancel_left,
      Nat.min_eq_left (by omega)]
  have hbytes : 0 < scalar.bytes := by cases scalar <;> decide
  have hcopy := copy_eq h helem hlength hnonempty hsources hold
  rw [generatedRow, hrows]
  simp only [bind, Except.bind, List.map_map, pure, Except.pure]
  rw [show (Buffer.bytesOf scalar.bytes ∘ fun source : Array scalar.Value × Nat =>
    Buffer.rowItems source.1 source.2 index) = rowBytes scalar index from rfl, hcopy]
  simp only [Buffer.wordsOf_toArray hbytes]

end Concat

end ChannelConcat
