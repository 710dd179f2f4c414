import ChannelConcat.Proofs.Adjacent
import ChannelConcat.Proofs.GeneratedRow
import ChannelConcat.Proofs.Program.Run

/-!
# Calls of generated routines

A routine that is called on sources of whole blocks leaves their changed blocks at the target, one
behind the other, and changes nothing else but the slot for the frame pointer. Main definitions:
`AtCall`, `Routine.Makes`. Main statements: `run_of_atCall`, `Concat.makes_row`.
-/

namespace ChannelConcat

open X86

/-! ## The bytes that a call leaves -/

/-- What a call reads: its descriptor, both tables and the sources. Each input is the table entry
for it with the bytes of its source. -/
def readRegions (state : State) (descriptor : Descriptor) (inputs : List (TableEntry × List Byte)) :
    List Region :=
  ⟨state.registers.rdi, 24⟩ :: ⟨descriptor.sources, 8 * inputs.length⟩ ::
    ⟨descriptor.counts, 4 * inputs.length⟩ ::
      inputs.map fun input => ⟨input.1.source, input.2.length⟩

/-- A machine at the entry of a routine that is called on the given inputs and a target of the given
number of bytes. The target and the slot for the frame pointer are apart from each other and from
all that is read. -/
structure AtCall (state : State) (descriptor : Descriptor) (inputs : List (TableEntry × List Byte))
    (bytes : Nat) : Prop where
  entry : AtEntry state descriptor (inputs.map Prod.fst)
  sources : ∀ input ∈ inputs, state.memory.load input.1.source input.2.length = input.2
  slot : ∀ region ∈ readRegions state descriptor inputs, region.Disjoint state.slot
  target : ∀ region ∈ readRegions state descriptor inputs,
    Region.Disjoint ⟨descriptor.target, bytes⟩ region
  target_slot : Region.Disjoint ⟨descriptor.target, bytes⟩ state.slot

namespace AtCall

variable {state : State} {descriptor : Descriptor} {inputs : List (TableEntry × List Byte)}
  {input : TableEntry × List Byte} {bytes : Nat}

/-- The region of a source is among those that are read. -/
theorem mem_readRegions (hinput : input ∈ inputs) :
    ⟨input.1.source, input.2.length⟩ ∈ readRegions state descriptor inputs :=
  List.mem_cons_of_mem _ (List.mem_cons_of_mem _ (List.mem_cons_of_mem _
    (List.mem_map.2 ⟨input, hinput, rfl⟩)))

/-- The target is no longer than all addresses. -/
theorem target_le (h : AtCall state descriptor inputs bytes) : bytes ≤ 2 ^ 64 :=
  h.target_slot.bytes_le (show 0 < 8 by decide)

/-- No source is longer than all addresses. -/
theorem source_le (h : AtCall state descriptor inputs bytes) (hinput : input ∈ inputs) :
    input.2.length ≤ 2 ^ 64 :=
  (h.slot _ (mem_readRegions hinput)).bytes_le (show 0 < 8 by decide)

/-- Keeping the frame pointer changes no source. -/
theorem load_pushed (h : AtCall state descriptor inputs bytes) (hinput : input ∈ inputs) :
    state.pushed.load input.1.source input.2.length = input.2 := by
  refine Eq.trans (Memory.load_congr fun a ha => ?_) (h.sources input hinput)
  exact State.pushed_of_not_contains (h.slot _ (mem_readRegions hinput) a ha)

/-- Where the blocks of each input fill its source, and all blocks the target, a call keeps apart
what it must. -/
theorem separate (h : AtCall state descriptor inputs bytes) {move : BlockMove}
    (hadjacent : move.Adjacent)
    (hinputs : ∀ input ∈ inputs, input.2.length = repeats input.1.count * move.bytes)
    (hbytes : bytes = BlockMove.blockTotal (inputs.map Prod.fst) * move.bytes) :
    Separate move state descriptor (inputs.map Prod.fst) := by
  have hlength : (inputs.map Prod.fst).length = inputs.length := List.length_map ..
  have hle := h.target_le
  have htarget := h.target
  rw [hbytes] at hle htarget
  refine ⟨h.slot _ (.head _), hlength ▸ h.slot _ (.tail _ (.head _)),
    hlength ▸ h.slot _ (.tail _ (.tail _ (.head _))), ?_, ?_, ?_⟩
  · intro entry hentry
    obtain ⟨input, hinput, rfl⟩ := List.mem_map.1 hentry
    have hsize := h.source_le hinput
    have hslot := h.slot _ (mem_readRegions hinput)
    rw [hinputs input hinput] at hsize hslot
    exact hadjacent.avoids_of_disjoint hsize hslot
  · exact hadjacent.avoids_of_disjoint hle (hlength ▸ htarget _ (.tail _ (.head _)))
  · exact hadjacent.avoids_of_disjoint hle (hlength ▸ htarget _ (.tail _ (.tail _ (.head _))))

end AtCall

/-- The blocks of sources that are whole blocks take all bytes of the sources. -/
theorem blockTotal_mul {inputs : List (TableEntry × List Byte)} {width : Nat}
    (h : ∀ input ∈ inputs, input.2.length = repeats input.1.count * width) :
    BlockMove.blockTotal (inputs.map Prod.fst) * width =
      (inputs.map fun input => input.2.length).sum := by
  induction inputs with
  | nil => exact Nat.zero_mul _
  | cons input inputs ih =>
      have hrest := ih fun later hlater => h later (List.mem_cons_of_mem _ hlater)
      rw [List.map_cons, List.map_cons, List.sum_cons, ← hrest, h input List.mem_cons_self,
        ← Nat.add_mul]
      rfl

section

variable {isa : Isa} {spec : Spec} {code : List Byte} {state : State} {descriptor : Descriptor}
  {inputs : List (TableEntry × List Byte)} {bytes : Nat}

/-- Code that is called on sources of whole blocks accesses and moves all blocks of its inputs on
the way to its return. -/
theorem exists_runs_of_atCall (hcode : generate isa spec = .ok code)
    (hrounds : spec.rounds = inputs.length) (hadjacent : spec.blockMove.Adjacent)
    (hcall : AtCall state descriptor inputs bytes)
    (hinputs : ∀ input ∈ inputs,
      input.2.length = repeats input.1.count * spec.blockMove.bytes)
    (hbytes : bytes = (inputs.map fun input => input.2.length).sum) :
    ∃ final, Runs code state
        (spec.blockMove.inputAccesses 0 (inputs.map Prod.fst) descriptor.target) final ∧
      AtReturn code final ∧
      final.memory = (spec.blockMove.copyInputs (inputs.map Prod.fst)
        ⟨descriptor.target, state.pushed⟩).memory := by
  rw [← blockTotal_mul hinputs] at hbytes
  have hlength : spec.rounds = (inputs.map Prod.fst).length := by rw [hrounds, List.length_map]
  have htake : (inputs.map Prod.fst).take spec.rounds = inputs.map Prod.fst := by
    rw [hlength, List.take_length]
  have hseparate := hcall.separate hadjacent hinputs hbytes
  obtain ⟨final, hrun, hreturn, hmemory, -⟩ := exists_runs_of_generate hcode hcall.entry
    (Nat.le_of_eq hlength) (htake.symm ▸ hseparate)
  -- The routine runs on all entries of the tables.
  rw [htake] at hrun hmemory
  exact ⟨final, hrun, hreturn, hmemory⟩

/-- Code that is called on sources of whole blocks comes to its return with their changed blocks at
the target, and has changed nothing else but the slot for the frame pointer. -/
theorem run_of_atCall (hcode : generate isa spec = .ok code)
    (hrounds : spec.rounds = inputs.length) (hadjacent : spec.blockMove.Adjacent)
    (hkeeps : spec.blockMove.KeepsLength) (hcall : AtCall state descriptor inputs bytes)
    (hinputs : ∀ input ∈ inputs,
      input.2.length = repeats input.1.count * spec.blockMove.bytes)
    (hbytes : bytes = (inputs.map fun input => input.2.length).sum) :
    ∃ steps, AtReturn code (run code steps state) ∧
      (run code steps state).memory.load descriptor.target bytes =
        (inputs.flatMap fun input => changeBlocks spec.blockMove.bytes spec.blockMove.change
          (repeats input.1.count) input.2) ∧
      ∀ a, ¬ state.slot.Contains a → ¬ Region.Contains ⟨descriptor.target, bytes⟩ a →
        (run code steps state).memory a = state.memory a := by
  obtain ⟨final, ⟨steps, rfl, -⟩, hreturn, hmemory⟩ :=
    exists_runs_of_atCall hcode hrounds hadjacent hcall hinputs hbytes
  -- The target ends before all addresses do.
  rw [← blockTotal_mul hinputs] at hbytes
  have hle := hcall.target_le
  rw [hbytes] at hle
  have hsources : ∀ entry ∈ inputs.map Prod.fst,
      Region.Disjoint ⟨descriptor.target,
          BlockMove.blockTotal (inputs.map Prod.fst) * spec.blockMove.bytes⟩
        ⟨entry.source, repeats entry.count * spec.blockMove.bytes⟩ := by
    intro entry hentry
    obtain ⟨input, hinput, rfl⟩ := List.mem_map.1 hentry
    rw [← hinputs input hinput, ← hbytes]
    exact hcall.target _ (AtCall.mem_readRegions hinput)
  have hload := hadjacent.load_copyInputs hkeeps ⟨descriptor.target, state.pushed⟩ hle hsources
  refine ⟨steps, hreturn, ?_, ?_⟩
  · rw [hmemory, hbytes, hload, List.flatMap_map, List.flatMap_def, List.flatMap_def]
    refine congrArg List.flatten (List.map_congr_left fun input hinput => ?_)
    rw [← hinputs input hinput, hcall.load_pushed hinput]
  · intro a hslot htarget
    rw [hmemory, BlockMove.copyInputs_of_not_contains hkeeps]
    · exact State.pushed_of_not_contains hslot
    · intro k hk hstored
      rw [hbytes] at htarget
      exact htarget (hadjacent.contains hk hle hstored)

end

/-! ## Rows of planned routines -/

/-- Called on sources with these bytes and block counts, the routine comes to its return with the
given bytes at the target, and has changed nothing else but the slot for the frame pointer. -/
def Routine.Makes (routine : Routine) (counts : List (BitVec 32)) (sources : List (List Byte))
    (row : List Byte) : Prop :=
  ∀ (state : State) (descriptor : Descriptor) (inputs : List (TableEntry × List Byte)),
    inputs.map (fun input => (input.1.count, input.2)) = counts.zip sources →
    AtCall state descriptor inputs row.length →
    ∃ steps, AtReturn routine.code (run routine.code steps state) ∧
      (run routine.code steps state).memory.load descriptor.target row.length = row ∧
      ∀ a, ¬ state.slot.Contains a → ¬ Region.Contains ⟨descriptor.target, row.length⟩ a →
        (run routine.code steps state).memory a = state.memory a

namespace Plan.Settled

variable {maxBits block : Nat} {inputs : List Tensor} {output : Tensor} {relu : Bool}
  {planned : Spec}

/-- A planned routine moves the bytes of a block at a time. -/
theorem bytes_blockMove (h : Settled maxBits inputs output relu planned block) :
    planned.blockMove.bytes = block * output.elem.bytes := by
  obtain ⟨selection, hselect, hbytes, -⟩ := h.exists_select
  rw [Spec.bytes_blockMove_of_select hselect, hbytes]

/-- The cursors of a planned routine advance by the bytes of a block. -/
theorem adjacent (h : Settled maxBits inputs output relu planned block) :
    planned.blockMove.Adjacent := by
  have hstride := h.stride_lt
  rw [BlockMove.Adjacent, h.bytes_blockMove, h.spec_eq]
  apply BitVec.eq_of_toInt_eq
  show ((BitVec.ofNat 32 (block * output.elem.bytes)).signExtend 64).toInt = _
  rw [BitVec.toInt_signExtend_of_le (by decide), toInt_ofNat_of_lt (by omega),
    BitVec.toInt_eq_toNat_of_lt] <;> rw [BitVec.toNat_ofNat] <;> omega

/-- A planned routine stores as many bytes of a block as it loads. -/
theorem keepsLength (h : Settled maxBits inputs output relu planned block) :
    planned.blockMove.KeepsLength := by
  obtain ⟨selection, hselect, -⟩ := h.exists_select
  exact Spec.blockMove_keepsLength hselect

end Plan.Settled

namespace Concat

variable {maxBits block index : Nat} {inputs : List Tensor} {output : Tensor} {relu : Bool}
  {routine : Routine} {scalar : Scalar} {sources : List (Array scalar.Value × Nat)}

/-- What is called with is taken back to the sources, block count by block count: the blocks of each
input are the bytes of a row, and the bytes of all rows are those of all their elements. -/
theorem length_of_map_calls {calls : List (TableEntry × List Byte)}
    (hcalls : calls.map (fun call => (call.1.count, call.2)) =
      sources.map fun source =>
        (channelBlocks block source.2, (rowBytes scalar index source).toList))
    (hsources : ∀ source ∈ sources, HasBlocks block index source) :
    calls.length = sources.length ∧
      (∀ call ∈ calls, call.2.length = repeats call.1.count * (block * scalar.bytes)) ∧
      (calls.map fun call => call.2.length).sum = (sources.map Prod.snd).sum * scalar.bytes := by
  refine ⟨by simpa using congrArg List.length hcalls, ?_, ?_⟩
  · intro call hcall
    have hmem := List.mem_map_of_mem (f := fun call => (call.1.count, call.2)) hcall
    rw [hcalls] at hmem
    obtain ⟨source, hsource, heq⟩ := List.mem_map.1 hmem
    obtain ⟨hcount, hrow⟩ := Prod.mk.inj heq
    rw [← hcount, ← hrow, (hsources source hsource).repeats_mul_bytes, Array.length_toList]
  · have hsizes := congrArg (List.map fun call : BitVec 32 × List Byte => call.2.length) hcalls
    rw [List.map_map, List.map_map] at hsizes
    rw [← sum_size_rowBytes hsources, List.map_map]
    exact congrArg List.sum hsizes

/-- The code of a planned routine makes the bytes of the clamped rows side by side. -/
theorem makes_row {isa : Isa} (h : Plan.Settled maxBits inputs output relu routine.spec block)
    (hcode : generate isa routine.spec = .ok routine.code) (helem : scalar.elem = output.elem)
    (hlength : sources.length = inputs.length)
    (hsources : ∀ source ∈ sources, HasBlocks block index source) :
    routine.Makes (sources.map fun source => channelBlocks block source.2)
      (sources.map fun source => (rowBytes scalar index source).toList)
      ((interleaved (if relu then scalar.clamp else id) sources index).flatMap
        (Word.toBytes scalar.bytes)) := by
  intro state descriptor calls hcalls hcall
  rw [List.zip_map'] at hcalls
  obtain ⟨selection, hselect, hchange, -⟩ := exists_select_of_settled h helem
  have hbytes : routine.spec.blockMove.bytes = block * scalar.bytes := by
    rw [h.bytes_blockMove, Scalar.bytes, helem]
  obtain ⟨hcount, hblocks, htotal⟩ := length_of_map_calls hcalls hsources
  have hrounds : routine.spec.rounds = calls.length := by rw [h.rounds_eq, hcount, hlength]
  have hrow : (interleaved (if relu then scalar.clamp else id) sources index).length =
      (sources.map Prod.snd).sum :=
    length_interleaved fun source hsource => (hsources source hsource).row
  rw [← hbytes] at hblocks
  rw [← hrow, ← length_flatMap_toBytes] at htotal
  obtain ⟨steps, hreturn, hload, hframe⟩ :=
    run_of_atCall hcode hrounds h.adjacent h.keepsLength hcall hblocks htotal.symm
  refine ⟨steps, hreturn, hload.trans ?_, hframe⟩
  have hchanged : routine.spec.blockMove.change = selection.onBlock :=
    Spec.onBlock_of_select hselect
  rw [hbytes, hchanged, ← flatMap_changeBlocks_rowBytes hchange hsources]
  have hcopies := congrArg (List.flatMap fun call : BitVec 32 × List Byte =>
    changeBlocks (block * scalar.bytes) selection.onBlock (repeats call.1) call.2) hcalls
  rw [List.flatMap_map, List.flatMap_map] at hcopies
  exact hcopies

end Concat

end ChannelConcat
