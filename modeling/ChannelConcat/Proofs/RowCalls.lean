import ChannelConcat.Proofs.Calls
import ChannelConcat.Proofs.Sessions
import ChannelConcat.Proofs.Tasks
import ChannelConcat.Proofs.Tiling
import ChannelConcat.Proofs.Windows

/-!
# Calls for rows

Execution with a generated routine is a call of the routine for each row of the target. In every
call the routine loads nothing outside the rows of the sources, and its stores tile the row of the
target. Main definitions: `Concat.calls`, `Placement.AtRow`, `Placement.RowAccesses`. Main
statements: `Concat.Valid.calls_eq`, `Concat.calls_tile_rows`.
-/

namespace ChannelConcat

open X86

/-- A call of a routine: the position whose rows it reads, and the offset in the target of the row
that it fills. -/
structure RowCall where
  index : Nat
  offset : Nat
  deriving DecidableEq

/-- The calls for the whole rows of a part of the target, the first of them for position `first`.
The part has `size` elements and begins at an offset in the target. -/
def rowCalls (width first offset size : Nat) : List RowCall :=
  (List.range (size / width)).map fun k => ⟨first + k, offset + k * width⟩

/-- Chunks of a range, the last of them cut short, are the range. -/
theorem flatMap_range_chunks (perTask pixels tasks : Nat) :
    ((List.range tasks).flatMap fun task =>
      (List.range (min perTask (pixels - task * perTask))).map (task * perTask + ·)) =
      List.range (min pixels (tasks * perTask)) := by
  induction tasks with
  | zero => rw [Nat.zero_mul, Nat.min_zero]; rfl
  | succ tasks ih =>
      rw [List.range_succ, List.flatMap_append, ih, List.flatMap_singleton, Nat.succ_mul]
      by_cases hdone : pixels ≤ tasks * perTask
      · rw [Nat.sub_eq_zero_of_le hdone, Nat.min_zero, List.range_zero, List.map_nil,
          List.append_nil, Nat.min_eq_left hdone, Nat.min_eq_left (by omega)]
      · rw [Nat.min_eq_right (by omega), ← List.range_add]
        congr 1
        omega

namespace Concat

/-- The calls that execution makes on a target of `size` elements, in one go or chunk by chunk. -/
def calls (concat : Concat) (threads size : Nat) : Except Fault (List RowCall) := do
  let pixels ← concat.output.pixels
  if concat.output.channels = 0 ∨ pixels = 0 then return []
  else
    let width ← Size.sum concat.channels
    if pixels < concat.parallelFrom then return rowCalls width 0 0 size
    else
      let perTask ← taskPixels threads pixels
      let chunk ← Size.mul perTask concat.output.channels
      return (tasks size chunk).flatMap fun task =>
        rowCalls width (task * perTask) (task * chunk) (min chunk (size - task * chunk))

variable {concat : Concat} {scalar : Scalar} {sources : List (Array scalar.Value)}
  {target : Array scalar.Value} {handle : Handle} {counts : List (BitVec 32)} {pixels : Nat}

/-- Perform the calls of a routine one after the other. -/
def perform (routine : Routine) (counts : List (BitVec 32)) (scalar : Scalar)
    (sources : List (Array scalar.Value × Nat)) (width : Nat) (calls : List RowCall)
    (target : Array scalar.Value) : Filled scalar.Value :=
  calls.foldl (fun filled call => filled.andThen
    (generatedRow routine counts scalar sources width call.index call.offset)) ⟨target, none⟩

/-- A part of the target is filled by the calls for its rows. -/
theorem generatedFrom_eq_perform {routine : Routine} {channels : List Nat} {width : Nat}
    (hwidth : Size.sum channels = .ok width) (first : Nat) (part : Array scalar.Value) :
    generatedFrom routine counts scalar sources channels first part =
      perform routine counts scalar (sources.zip channels) width
        (rowCalls width first 0 part.size) part := by
  simp only [generatedFrom, hwidth, Buffer.fillRows, perform, rowCalls, List.foldl_map,
    Nat.zero_add]

/-- Whole rows that begin in the target where their positions do are called for in turn. -/
theorem rowCalls_eq_map {width : Nat} (hwidth : 0 < width) (first rows : Nat) :
    rowCalls width first (first * width) (rows * width) =
      ((List.range rows).map (first + ·)).map fun index => ⟨index, index * width⟩ := by
  rw [rowCalls, Nat.mul_div_cancel _ hwidth, List.map_map]
  refine List.map_congr_left fun k _ => ?_
  rw [Function.comp_apply, Nat.add_mul]

/-- The rows of the whole target are called for position by position. -/
theorem rowCalls_zero {width : Nat} (hwidth : 0 < width) (rows : Nat) :
    rowCalls width 0 0 (rows * width) =
      (List.range rows).map fun index => ⟨index, index * width⟩ := by
  have hrows := rowCalls_eq_map hwidth 0 rows
  simpa only [Nat.zero_add, List.map_id', Nat.zero_mul] using hrows

/-- The calls of all tasks, one task after the other, are one for each position in order. -/
theorem flatMap_rowCalls {width perTask size : Nat} (hsize : size = pixels * width)
    (hwidth : 0 < width) (hperTask : 0 < perTask) :
    ((tasks size (perTask * width)).flatMap fun task =>
      rowCalls width (task * perTask) (task * (perTask * width))
        (min (perTask * width) (size - task * (perTask * width)))) =
      (List.range pixels).map fun index => ⟨index, index * width⟩ := by
  subst hsize
  have hchunk := Nat.mul_pos hperTask hwidth
  have hpart (task : Nat) : rowCalls width (task * perTask) (task * (perTask * width))
      (min (perTask * width) (pixels * width - task * (perTask * width))) =
      ((List.range (min perTask (pixels - task * perTask))).map (task * perTask + ·)).map
        fun index => ⟨index, index * width⟩ := by
    rw [← Nat.mul_assoc, ← Nat.sub_mul, Nat.mul_min_mul_right, rowCalls_eq_map hwidth]
  -- The last task ends behind the last position.
  have hall : pixels ≤ (pixels * width + perTask * width - 1) / (perTask * width) * perTask := by
    refine Nat.le_of_not_lt fun hmissing => ?_
    have hlast := Nat.mul_lt_mul_of_pos_right hmissing hwidth
    rw [Nat.mul_assoc] at hlast
    exact Nat.lt_irrefl _ ((lt_chunks_iff hchunk).2 hlast)
  simp only [hpart]
  rw [tasks, ← List.map_flatMap, flatMap_range_chunks, Nat.min_eq_left hall]

/-- On a target that fits there is one call for each position, in order, and its row begins where
the rows of the positions before end. Without channels there are no calls. -/
theorem Valid.calls_eq (h : concat.Valid) {threads : Nat} (hthreads : 0 < threads)
    (hlimit : threads * 4 < Size.limit) (hpixels : concat.output.pixels = .ok pixels)
    (htarget : target.size = pixels * concat.output.channels) :
    concat.calls threads target.size =
      .ok (if concat.output.channels = 0 then []
        else (List.range pixels).map fun index => ⟨index, index * concat.output.channels⟩) := by
  rw [calls, hpixels]
  simp only [bind, Except.bind, Size.sum_eq_ok_iff.2 ⟨h.sum_channels, h.fit.channels_lt⟩]
  by_cases hchannels : concat.output.channels = 0
  · rw [if_pos (.inl hchannels), if_pos hchannels]
    rfl
  · have hwidth := Nat.pos_of_ne_zero hchannels
    rw [if_neg hchannels]
    by_cases hnone : pixels = 0
    · rw [if_pos (.inr hnone), hnone]
      rfl
    · rw [if_neg (not_or.2 ⟨hchannels, hnone⟩)]
      split
      · rw [htarget, rowCalls_zero hwidth]
        rfl
      · obtain ⟨perTask, hperTask, hpos, hle⟩ :=
          exists_taskPixels hthreads hlimit (Nat.pos_of_ne_zero hnone)
        have hchunk : perTask * concat.output.channels < Size.limit :=
          Nat.lt_of_le_of_lt (Nat.mul_le_mul_right _ hle) <| by
            rw [← (Tensor.pixels_eq_ok_iff.1 hpixels).2.1]
            exact h.fit.outputElements
        simp only [hperTask, Size.mul_eq_ok_iff.2 ⟨rfl, hchunk⟩]
        rw [flatMap_rowCalls htarget hwidth hpos]
        rfl

/-- The calls for all positions fill a target that fits with the image of the sources. -/
theorem Valid.perform_eq (h : concat.Valid) (hmatches : concat.Matches scalar sources target)
    (hkernel : concat.kernel = .generated handle counts)
    (hpixels : concat.output.pixels = .ok pixels) (hchannels : 0 < concat.output.channels) :
    perform handle.routine counts scalar (sources.zip concat.channels) concat.output.channels
        ((List.range pixels).map fun index => ⟨index, index * concat.output.channels⟩) target =
      ⟨(concat.image scalar sources).toArray, none⟩ := by
  obtain ⟨-, rfl, -⟩ := Tensor.pixels_eq_ok_iff.1 hpixels
  rw [← rowCalls_zero hchannels, ← hmatches.target, ← generatedFrom_eq_perform
    (Size.sum_eq_ok_iff.2 ⟨h.sum_channels, h.fit.channels_lt⟩), ← h.serial_eq hmatches hchannels,
    fillFrom, hkernel]

end Concat

/-! ## Addresses of a call -/

/-- Where the buffers of an execution begin in memory. -/
structure Placement where
  source : Nat → Address
  target : Address

namespace Placement

/-- No buffer runs across the end of the addresses. -/
structure Holds (placement : Placement) (scalar : Scalar) (sources : List (Array scalar.Value))
    (target : Array scalar.Value) : Prop where
  sources : ∀ (i : Nat) (source : Array scalar.Value), sources[i]? = some source →
    (placement.source i).toNat + source.size * scalar.bytes ≤ 2 ^ 64
  target : placement.target.toNat + target.size * scalar.bytes ≤ 2 ^ 64

/-- The inputs of the call for a position: the address of the row of each source with its block
count, and the bytes of the row. -/
def inputs (placement : Placement) (scalar : Scalar) (counts : List (BitVec 32))
    (sources : List (Array scalar.Value × Nat)) (index : Nat) : List (TableEntry × List Byte) :=
  (counts.zip sources).zipIdx.map fun entry =>
    (⟨placement.source entry.2 + BitVec.ofNat 64 (index * entry.1.2.2 * scalar.bytes), entry.1.1⟩,
      (Concat.rowBytes scalar index entry.1.2).toList)

/-- A machine at the entry of the routine that is called for a row: the descriptor leads to the rows
of the sources and to the row of the target. -/
structure AtRow (placement : Placement) (scalar : Scalar) (counts : List (BitVec 32))
    (sources : List (Array scalar.Value × Nat)) (width : Nat) (call : RowCall) (state : State)
    (descriptor : Descriptor) : Prop where
  atCall : AtCall state descriptor (placement.inputs scalar counts sources call.index)
    (width * scalar.bytes)
  target : descriptor.target =
    placement.target + BitVec.ofNat 64 (call.offset * scalar.bytes)

/-- The accesses of the call for a position. None of them is empty, each load for an input lies in
the row of its source, and each store in the row of the target. The stores ascend without overlap,
and every byte of the row is stored. -/
structure RowAccesses (placement : Placement) (bytes : Nat) (channels : List Nat)
    (width index : Nat) (trace : List Access) : Prop where
  nonempty : ∀ access ∈ trace, 0 < access.region.bytes
  loads : ∀ access ∈ trace, access.kind = .load → ∃ count, channels[access.input]? = some count ∧
    access.region.Within ((placement.source access.input).toNat + index * count * bytes)
      ((placement.source access.input).toNat + (index + 1) * count * bytes)
  stores : ∀ region ∈ X86.stores trace,
    region.Within (placement.target.toNat + index * width * bytes)
      (placement.target.toNat + (index + 1) * width * bytes)
  ascending : (X86.stores trace).Pairwise fun first second =>
    first.start.toNat + first.bytes ≤ second.start.toNat
  covered : ∀ a, placement.target.toNat + index * width * bytes ≤ a →
    a < placement.target.toNat + (index + 1) * width * bytes →
      ∃ region ∈ X86.stores trace, region.start.toNat ≤ a ∧ a < region.start.toNat + region.bytes

variable {placement : Placement} {scalar : Scalar} {sources : List (Array scalar.Value)}
  {target : Array scalar.Value} {channels : List Nat} {block index i : Nat}

/-- The inputs of a call are its block counts with the bytes of the rows. -/
theorem map_inputs (placement : Placement) (g : Nat → BitVec 32)
    (pairs : List (Array scalar.Value × Nat)) :
    (placement.inputs scalar (pairs.map fun pair => g pair.2) pairs index).map
        (fun input => (input.1.count, input.2)) =
      pairs.map fun pair => (g pair.2, (Concat.rowBytes scalar index pair).toList) := by
  have hpairs : (pairs.map fun pair => g pair.2).zip pairs =
      pairs.map fun pair => (g pair.2, pair) := by
    conv_lhs => rw [← List.map_id pairs, List.map_map, List.zip_map']
    rfl
  calc (placement.inputs scalar (pairs.map fun pair => g pair.2) pairs index).map
        (fun input => (input.1.count, input.2))
      = (((pairs.map fun pair => g pair.2).zip pairs).zipIdx.map Prod.fst).map
          (Prod.map id fun pair => (Concat.rowBytes scalar index pair).toList) := by
        rw [inputs, List.map_map, List.map_map]
        rfl
    _ = pairs.map fun pair => (g pair.2, (Concat.rowBytes scalar index pair).toList) := by
        rw [List.zipIdx_map_fst, hpairs, List.map_map]
        rfl

/-- The table entry of an input: the address of the row of its source, and its block count. -/
theorem exists_of_getElem?_inputs {g : Nat → BitVec 32} {entry : TableEntry}
    (h : ((placement.inputs scalar ((sources.zip channels).map fun pair => g pair.2)
      (sources.zip channels) index).map Prod.fst)[i]? = some entry) :
    ∃ source width, sources[i]? = some source ∧ channels[i]? = some width ∧
      entry = ⟨placement.source i + BitVec.ofNat 64 (index * width * scalar.bytes), g width⟩ := by
  simp only [inputs, List.map_map, List.getElem?_map, List.getElem?_zipIdx, Option.map_eq_some_iff,
    Nat.zero_add] at h
  obtain ⟨_, ⟨pair, hpair, rfl⟩, rfl⟩ := h
  obtain ⟨hcount, hsource⟩ := List.getElem?_zip_eq_some.1 hpair
  rw [List.getElem?_map, hsource, Option.map_some, Option.some.injEq] at hcount
  obtain ⟨hfirst, hsecond⟩ := List.getElem?_zip_eq_some.1 hsource
  exact ⟨pair.2.1, pair.2.2, hfirst, hsecond, by rw [hcount]; rfl⟩

/-- A move of whole blocks side by side, made for all inputs of a call, accesses the rows of the
sources and tiles the row of the target. -/
theorem rowAccesses_of_adjacent {move : BlockMove} (hadjacent : move.Adjacent)
    (hpos : 0 < move.bytes) (hbytes : move.bytes = block * scalar.bytes)
    (hlength : sources.length = channels.length) (hplaced : placement.Holds scalar sources target)
    (hblocks : ∀ pair ∈ sources.zip channels, Concat.HasBlocks block index pair)
    (hfits : (index + 1) * channels.sum ≤ target.size) :
    placement.RowAccesses scalar.bytes channels channels.sum index
      (move.inputAccesses 0
        ((placement.inputs scalar
          ((sources.zip channels).map fun pair => Concat.channelBlocks block pair.2)
          (sources.zip channels) index).map Prod.fst)
        (placement.target + BitVec.ofNat 64 (index * channels.sum * scalar.bytes))) := by
  have hnext (width : Nat) : (index + 1) * width * scalar.bytes =
      index * width * scalar.bytes + width * scalar.bytes := by
    rw [Nat.succ_mul, Nat.add_mul]
  obtain ⟨-, hinputs, hsizes⟩ := Concat.length_of_map_calls
    (placement.map_inputs (Concat.channelBlocks block) (sources.zip channels)) hblocks
  have htotal := blockTotal_mul (hbytes ▸ hinputs)
  rw [hsizes, List.map_snd_zip (Nat.le_of_eq hlength.symm)] at htotal
  have hspace : placement.target.toNat +
      (index * channels.sum * scalar.bytes + channels.sum * scalar.bytes) ≤ 2 ^ 64 := by
    rw [← hnext]
    exact Nat.le_trans (Nat.add_le_add_left (Nat.mul_le_mul_right _ hfits) _) hplaced.target
  rw [← htotal] at hspace
  have htiles := hadjacent.tiles_inputAccesses hpos hspace 0
  rw [htotal, ← hnext] at htiles
  refine ⟨?_, ?_, fun region hregion => (htiles.within hregion).1, htiles.pairwise,
    fun a hlow hhigh => htiles.exists_mem hlow hhigh⟩
  · intro access haccess
    obtain ⟨i, entry, cursor, -, hmem⟩ := BlockMove.exists_of_mem_inputAccesses haccess
    exact (BlockMove.input_of_mem_blockAccesses hmem).2.symm ▸ hpos
  · intro access haccess hload
    obtain ⟨i, entry, cursor, hentry, hmem⟩ := BlockMove.exists_of_mem_inputAccesses haccess
    obtain ⟨hinput, -⟩ := BlockMove.input_of_mem_blockAccesses hmem
    obtain ⟨source, width, hsource, hwidth, rfl⟩ := exists_of_getElem?_inputs hentry
    rw [Nat.zero_add] at hinput
    have hblock := hblocks (source, width)
      (List.mem_of_getElem? (List.getElem?_zip_eq_some.2 ⟨hsource, hwidth⟩))
    have hrow : repeats (Concat.channelBlocks block width) * move.bytes = width * scalar.bytes := by
      rw [hbytes, ← Nat.mul_assoc, hblock.repeats_mul]
    have hplace : (placement.source i).toNat +
        (index * width * scalar.bytes + width * scalar.bytes) ≤ 2 ^ 64 := by
      rw [← hnext]
      exact Nat.le_trans (Nat.add_le_add_left (Nat.mul_le_mul_right _ hblock.row.stop_le) _)
        (hplaced.sources i source hsource)
    rw [← hrow] at hplace
    have hwithin := hadjacent.within_of_mem_blockAccesses hpos hplace hmem hload
    rw [hrow, ← hnext] at hwithin
    rw [hinput]
    exact ⟨width, hwidth, hwithin⟩

end Placement

namespace Concat

variable {concat : Concat} {scalar : Scalar} {sources : List (Array scalar.Value)}
  {target : Array scalar.Value} {handle : Handle} {counts : List (BitVec 32)}
  {placement : Placement} {state : State} {descriptor : Descriptor}

/-- On buffers that match the shapes, the code of the routine that is called for a row accesses the
rows of the sources and tiles the row of the target. -/
theorem Valid.exists_accesses (h : concat.Valid) {isa : Isa} (hgenerated : handle.IsGenerated isa)
    (hmatches : concat.Matches scalar sources target)
    (hkernel : concat.kernel = .generated handle counts) {index : Nat}
    (hindex : index < concat.output.positions) (hplaced : placement.Holds scalar sources target)
    (hrow : placement.AtRow scalar counts (sources.zip concat.channels) concat.output.channels
      ⟨index, index * concat.output.channels⟩ state descriptor) :
    ∃ steps, AtReturn handle.routine.code (run handle.routine.code steps state) ∧
      placement.RowAccesses scalar.bytes concat.channels concat.output.channels index
        (accesses handle.routine.code steps state) := by
  obtain ⟨maxBits, block, hsettled, rfl, hblocks⟩ := h.exists_settled hkernel hmatches
  have hlength := hmatches.length_channels
  have hbytes : handle.routine.spec.blockMove.bytes = block * scalar.bytes := by
    rw [hsettled.bytes_blockMove, Scalar.bytes, hmatches.elem]
  obtain ⟨selection, -, hwidth, -⟩ := hsettled.exists_select
  have hpos : 0 < handle.routine.spec.blockMove.bytes := by
    rw [hsettled.bytes_blockMove, ← hwidth]
    cases selection.width <;> decide
  obtain ⟨hcount, hinputs, htotal⟩ := length_of_map_calls
    (placement.map_inputs (channelBlocks block) (sources.zip concat.channels))
    (hblocks index hindex)
  rw [List.map_snd_zip (Nat.le_of_eq hlength.symm), h.sum_channels] at htotal
  rw [List.length_zip, ← hlength, Nat.min_self, hmatches.length, ← hsettled.rounds_eq] at hcount
  obtain ⟨final, ⟨steps, rfl, htrace⟩, hreturn, -⟩ := exists_runs_of_atCall hgenerated hcount.symm
    hsettled.adjacent hrow.atCall (hbytes ▸ hinputs) htotal.symm
  refine ⟨steps, hreturn, ?_⟩
  have hfits : (index + 1) * concat.channels.sum ≤ target.size := by
    rw [hmatches.target, h.sum_channels]
    exact Nat.mul_le_mul_right _ hindex
  have haccesses := Placement.rowAccesses_of_adjacent hsettled.adjacent hpos hbytes hlength hplaced
    (hblocks index hindex) hfits
  rw [htrace, hrow.target]
  rwa [h.sum_channels] at haccesses

/-- Execution with a generated routine calls it once for each position, and performs nothing but
these calls. In every call the routine loads nothing outside the rows of the sources at its
position, and its stores tile the row of the target there. -/
theorem calls_tile_rows {host isa : Isa} {options : Options} {requests : List Request}
    {inputs : List Tensor} {output : Tensor} {relu : Bool}
    (hprepared : (prepare (Compiler.after { host, isa, options } requests) inputs output
      relu).result = .ok concat)
    (hkernel : concat.kernel = .generated handle counts) {threads : Nat} (hthreads : 0 < threads)
    (hlimit : threads * 4 < Size.limit)
    (hbuffers : concat.checkBuffers scalar.elem sources target = .ok ())
    (hplaced : placement.Holds scalar sources target) :
    ∃ pixels calls, output.pixels = .ok pixels ∧ concat.calls threads target.size = .ok calls ∧
      (output.channels ≠ 0 → calls.map RowCall.index = List.range pixels) ∧
      concat.execute threads scalar sources target =
        ((perform handle.routine counts scalar (sources.zip (inputs.map Tensor.channels))
          output.channels calls target).buffer, .ok ()) ∧
      ∀ call ∈ calls, call.offset = call.index * output.channels ∧
        ∀ state descriptor, placement.AtRow scalar counts
            (sources.zip (inputs.map Tensor.channels)) output.channels call state descriptor →
          ∃ steps, AtReturn handle.routine.code (run handle.routine.code steps state) ∧
            placement.RowAccesses scalar.bytes (inputs.map Tensor.channels) output.channels
              call.index (accesses handle.routine.code steps state) := by
  have hgenerated : handle.IsGenerated isa :=
    ((Compiler.sound_of_entries_eq_nil rfl).after requests).prepare inputs output relu |>.2
      concat handle counts hprepared hkernel
  obtain ⟨hvalid, rfl, rfl, rfl⟩ := valid_of_prepare hprepared
  obtain ⟨pixels, hpixels⟩ := hvalid.pixels_of_checkBuffers hbuffers
  have hmatches := ((hvalid.checkBuffers_cases hpixels sources target).1).1 hbuffers
  have hpositions := (Tensor.pixels_eq_ok_iff.1 hpixels).2.1
  have hcalls := hvalid.calls_eq hthreads hlimit hpixels (hpositions ▸ hmatches.target)
  have hexecute := hvalid.execute_of_matches hpixels hmatches hthreads hlimit
  by_cases hchannels : concat.output.channels = 0
  · -- Without channels nothing is called, and there is nothing to fill.
    rw [if_pos hchannels] at hcalls
    have hempty : target.size = 0 := by rw [hmatches.target, hchannels, Nat.mul_zero]
    refine ⟨pixels, [], hpixels, hcalls, fun hsome => absurd hchannels hsome, ?_, nofun⟩
    rw [hexecute, hvalid.toArray_image_of_size_eq_zero hmatches hempty]
    rfl
  · rw [if_neg hchannels] at hcalls
    refine ⟨pixels, _, hpixels, hcalls, fun _ => ?_, ?_, ?_⟩
    · rw [List.map_map]
      exact List.map_id _
    · rw [hexecute]
      exact congrArg (fun filled => (Filled.buffer filled, Except.ok ()))
        (hvalid.perform_eq hmatches hkernel hpixels (Nat.pos_of_ne_zero hchannels)).symm
    · intro call hcall
      obtain ⟨index, hindex, rfl⟩ := List.mem_map.1 hcall
      rw [List.mem_range, ← hpositions] at hindex
      exact ⟨rfl, fun state descriptor hrow =>
        hvalid.exists_accesses hgenerated hmatches hkernel hindex hplaced hrow⟩

/-- Two inputs of four and of eight channels at two positions in parallel tasks, with a machine at
the entry of the call for the second position. -/
theorem calls_tile_rows_two_inputs :
    let inputs : List Tensor := [.interleaved .f32 ⟨1, 1, 2, 4⟩, .interleaved .f32 ⟨1, 1, 2, 8⟩]
    let output : Tensor := .interleaved .f32 ⟨1, 1, 2, 12⟩
    let options : Options := { parallelFrom := 0 }
    let sources : List (Array Scalar.f32.Value) := [Array.replicate 8 1, Array.replicate 16 2]
    let target : Array Scalar.f32.Value := Array.replicate 24 7
    let placement : Placement :=
      ⟨fun i => (Call.Window.source i).address - BitVec.ofNat 64 (16 * (i + 1)),
        Call.Window.target.address - 48⟩
    ∃ concat handle counts,
      (prepare (Compiler.after { host := .avx512, isa := .avx2, options } []) inputs output
        true).result = .ok concat ∧
      concat.kernel = .generated handle counts ∧ 0 < 1 ∧ 1 * 4 < Size.limit ∧
      concat.checkBuffers .f32 sources target = .ok () ∧ placement.Holds .f32 sources target ∧
      (∃ state, placement.AtRow .f32 counts (sources.zip (inputs.map Tensor.channels))
        output.channels ⟨1, 12⟩ state Call.descriptor) ∧
      ∃ pixels calls, output.pixels = .ok pixels ∧ concat.calls 1 target.size = .ok calls ∧
        (output.channels ≠ 0 → calls.map RowCall.index = List.range pixels) ∧
        concat.execute 1 .f32 sources target =
          ((perform handle.routine counts .f32 (sources.zip (inputs.map Tensor.channels))
            output.channels calls target).buffer, .ok ()) ∧
        ∀ call ∈ calls, call.offset = call.index * output.channels ∧
          ∀ state descriptor, placement.AtRow .f32 counts
              (sources.zip (inputs.map Tensor.channels)) output.channels call state descriptor →
            ∃ steps, AtReturn handle.routine.code (run handle.routine.code steps state) ∧
              placement.RowAccesses Scalar.f32.bytes (inputs.map Tensor.channels) output.channels
                call.index (accesses handle.routine.code steps state) := by
  intro inputs output options sources target placement
  have hplan : ChannelConcat.plan
      (Compiler.after { host := .avx512, isa := .avx2, options } []).maxBits inputs output true =
      .ok (Plan.spec inputs output true 4) :=
    plan_eq_ok_iff.2 ⟨rfl, rfl, by decide, by decide, 4, by decide +kernel, rfl⟩
  have hdefect : Shape.defect inputs output = none := rfl
  obtain ⟨concat, handle, hprepared, hkernel⟩ := exists_prepare_of_plan hdefect (by decide +kernel)
    hplan (by decide +kernel)
  obtain ⟨hvalid, hinputs, houtput, -⟩ := valid_of_prepare hprepared
  have hlength : sources.length = inputs.length := rfl
  have hsources : ∀ pair ∈ sources.zip inputs,
      pair.1.size = pair.2.positions * pair.2.channels := by decide +kernel
  have htarget : target.size = output.positions * output.channels := by decide +kernel
  have hmatches : concat.Matches .f32 sources target :=
    ⟨congrArg Tensor.elem houtput.symm, hlength.trans (congrArg List.length hinputs.symm),
      hinputs.symm ▸ hsources, houtput.symm ▸ htarget⟩
  have hpixels : concat.output.pixels = .ok 2 := houtput.symm ▸ rfl
  have hbuffers := ((hvalid.checkBuffers_cases hpixels sources target).1).2 hmatches
  have hplaced : placement.Holds .f32 sources target := by
    refine ⟨?_, by decide +kernel⟩
    intro i source hsource
    rcases i with _ | _ | i
    · obtain rfl := Option.some.inj hsource
      decide +kernel
    · obtain rfl := Option.some.inj hsource
      decide +kernel
    · cases hsource
  -- The rows at the second position lie in windows of their own.
  let call : Call := ⟨[rowBytes .f32 1 (sources[0], 4), rowBytes .f32 1 (sources[1], 8)], [1, 2],
    Array.replicate 48 0⟩
  have hfits : call.Fits := ⟨rfl, by decide, by decide +kernel, by decide +kernel⟩
  have hcall : placement.inputs .f32 (inputs.map fun input => BitVec.ofNat 32 (input.channels / 4))
      (sources.zip (inputs.map Tensor.channels)) 1 = call.inputs := by decide +kernel
  have hrow : placement.AtRow .f32 (inputs.map fun input => BitVec.ofNat 32 (input.channels / 4))
      (sources.zip (inputs.map Tensor.channels)) output.channels ⟨1, 12⟩ call.entryState
      Call.descriptor :=
    ⟨hcall.symm ▸ Call.atCall hfits, by decide +kernel⟩
  exact ⟨concat, handle, _, hprepared, hkernel, by decide, by decide, hbuffers, hplaced,
    ⟨call.entryState, hrow⟩,
    calls_tile_rows hprepared hkernel (by decide) (by decide) hbuffers hplaced⟩

end Concat

end ChannelConcat
