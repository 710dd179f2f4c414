import ChannelConcat.Buffer
import ChannelConcat.Program

/-!
# Block transfers

What a copy routine does, as a sequence of transfers: each takes one vector from a source, clamps it
if the routine does so, and puts it at the destination. The offset in the source counts the blocks
of that source, and the offset at the destination counts all blocks before. Main definitions:
`transfers`, `copyBlocks`. Main statements: `copyBlocks_copyBlocks` says that copying once more
changes nothing, and `copyBlocks_reducedCounts` that a loop whose offsets stand still need not run
more than once.
-/

namespace ChannelConcat

/-- The transfer of one block: the number of the input, the offset in its source and the offset at
the destination, in bytes. -/
structure Transfer where
  input : Nat
  source : Int
  target : Int
  deriving DecidableEq

/-- The number of times that a loop runs which counts a signed word down to zero. -/
def repeats (count : BitVec 32) : Nat :=
  count.toInt.toNat

/-- The blocks of all inputs in the order of the copy, each as the number of its input and its place
in that input. -/
def blockIndices (inputs : Nat) (counts : List (BitVec 32)) : List (Nat × Nat) :=
  (counts.take inputs).zipIdx.flatMap fun entry =>
    (List.range (repeats entry.1)).map fun k => (entry.2, k)

/-- The transfers of a routine for the given block counts. Block `k` of an input is loaded `k`
strides from its start, and the block with `m` blocks before it is stored `m` strides from the start
of the destination. -/
def transfers (bounds : LoopBounds) (counts : List (BitVec 32)) : List Transfer :=
  (blockIndices (repeats bounds.inputs) counts).zipIdx.map fun entry =>
    ⟨entry.1.1, entry.1.2 * bounds.stride.toInt, entry.2 * bounds.stride.toInt⟩

/-- Do one transfer between buffers of bytes. Offsets count from the front of a buffer; bytes that
lie past the end of a source are missing from the vector, and bytes past the end of the target are
dropped. -/
def Transfer.perform (selection : Selection) (sources : List (Array Byte)) (target : Array Byte)
    (transfer : Transfer) : Array Byte :=
  let source := sources.getD transfer.input #[]
  let start := transfer.source.toNat
  let block := Buffer.stretch source start (start + selection.width.bytes)
  Buffer.overwrite target transfer.target.toNat (selection.onBlock block)

/-- Do all transfers of a routine between buffers of bytes, in order. -/
def copyBlocks (selection : Selection) (bounds : LoopBounds) (counts : List (BitVec 32))
    (sources : List (Array Byte)) (target : Array Byte) : Array Byte :=
  (transfers bounds counts).foldl (Transfer.perform selection sources) target

/-- Doing a transfer once more changes nothing. -/
theorem Transfer.perform_perform (selection : Selection) (sources : List (Array Byte))
    (target : Array Byte) (transfer : Transfer) :
    transfer.perform selection sources (transfer.perform selection sources target) =
      transfer.perform selection sources target :=
  Buffer.overwrite_overwrite _ _ _

section

variable {selection : Selection} {sources : List (Array Byte)}

/-- Transfers keep the size of the target. -/
theorem size_foldl_perform (list : List Transfer) (target : Array Byte) :
    (list.foldl (Transfer.perform selection sources) target).size = target.size := by
  induction list generalizing target with
  | nil => rfl
  | cons transfer list ih => rw [List.foldl_cons, ih, Transfer.perform, Buffer.size_overwrite]

/-- Whatever two targets of one size held before, after the same transfers they hold the same byte
at an index, or no transfer has reached it in either of them. -/
theorem getElem?_foldl_perform_cases (list : List Transfer) {first second : Array Byte}
    (hsize : first.size = second.size) (i : Nat) :
    (list.foldl (Transfer.perform selection sources) first)[i]? =
        (list.foldl (Transfer.perform selection sources) second)[i]? ∨
      (list.foldl (Transfer.perform selection sources) first)[i]? = first[i]? ∧
        (list.foldl (Transfer.perform selection sources) second)[i]? = second[i]? := by
  induction list generalizing first second with
  | nil => exact .inr ⟨rfl, rfl⟩
  | cons transfer list ih =>
      rw [List.foldl_cons, List.foldl_cons]
      have hnext : (transfer.perform selection sources first).size =
          (transfer.perform selection sources second).size := by
        simp only [Transfer.perform, Buffer.size_overwrite, hsize]
      rcases ih hnext with hsame | ⟨hfirst, hsecond⟩
      · exact .inl hsame
      · -- No later transfer reaches the index, so the first one decides.
        rw [hfirst, hsecond]
        simp only [Transfer.perform, Buffer.getElem?_overwrite, hsize]
        split
        · exact .inl rfl
        · exact .inr ⟨rfl, rfl⟩

/-- Copying once more changes nothing. -/
theorem copyBlocks_copyBlocks (bounds : LoopBounds) (counts : List (BitVec 32))
    (target : Array Byte) :
    copyBlocks selection bounds counts sources (copyBlocks selection bounds counts sources target) =
      copyBlocks selection bounds counts sources target := by
  have hsize : target.size = (copyBlocks selection bounds counts sources target).size :=
    (size_foldl_perform _ target).symm
  apply Array.ext_getElem?
  intro i
  rcases getElem?_foldl_perform_cases (transfers bounds counts) hsize i with hsame | ⟨-, hkept⟩
  · exact hsame.symm
  · exact hkept

end

/-- Block counts that lead to the same target: as given where the offsets advance, and at most one
for each input where they stand still. -/
def LoopBounds.reducedCounts (bounds : LoopBounds) (counts : List (BitVec 32)) :
    List (BitVec 32) :=
  if bounds.stride = 0 then counts.map fun count => if repeats count = 0 then 0 else 1 else counts

/-- Where the offsets stand still, all transfers of an input are the same. -/
theorem transfers_of_stride_eq_zero {bounds : LoopBounds} (h : bounds.stride = 0)
    (counts : List (BitVec 32)) :
    transfers bounds counts =
      (counts.take (repeats bounds.inputs)).zipIdx.flatMap fun entry =>
        List.replicate (repeats entry.1) ⟨entry.2, 0, 0⟩ := by
  have hmap : transfers bounds counts =
      ((blockIndices (repeats bounds.inputs) counts).zipIdx.map Prod.fst).map
        fun block => ⟨block.1, 0, 0⟩ := by
    rw [List.map_map]
    simp [transfers, h, Function.comp_def]
  rw [hmap, List.zipIdx_map_fst, blockIndices, List.map_flatMap]
  congr 1
  funext entry
  simp [List.map_map, Function.comp_def, List.map_const']

/-- Folding an operation over a repeated item, where a second time changes nothing. -/
theorem foldl_replicate_of_idem {α β : Type} {f : β → α → β} {item : α}
    (h : ∀ value, f (f value item) item = f value item) (n : Nat) (value : β) :
    (List.replicate n item).foldl f value = if n = 0 then value else f value item := by
  induction n generalizing value with
  | zero => rfl
  | succ n ih =>
      rw [List.replicate_succ, List.foldl_cons, ih]
      by_cases hn : n = 0 <;> simp [hn, h]

/-- Where the offsets stand still, it is enough to run each loop once. -/
theorem copyBlocks_reducedCounts (selection : Selection) (bounds : LoopBounds)
    (counts : List (BitVec 32)) (sources : List (Array Byte)) (target : Array Byte) :
    copyBlocks selection bounds (bounds.reducedCounts counts) sources target =
      copyBlocks selection bounds counts sources target := by
  by_cases h : bounds.stride = 0
  · have hzero : repeats 0#32 = 0 := by decide
    have hone : repeats 1#32 = 1 := by decide
    simp only [copyBlocks, LoopBounds.reducedCounts, if_pos h, transfers_of_stride_eq_zero h,
      List.foldl_flatMap, ← List.map_take, List.zipIdx_map, List.foldl_map, Prod.map_fst,
      Prod.map_snd, id_eq,
      foldl_replicate_of_idem fun target => Transfer.perform_perform selection sources target _]
    congr 1
    funext target entry
    by_cases hcount : repeats entry.1 = 0 <;> simp [hcount, hone, hzero]
  · rw [LoopBounds.reducedCounts, if_neg h]

end ChannelConcat
