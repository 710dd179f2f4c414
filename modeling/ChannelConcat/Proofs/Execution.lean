import ChannelConcat.Proofs.GeneratedRow
import ChannelConcat.Proofs.Preparation

/-!
# Executed concatenations

On buffers that match its shapes a valid concatenation fills the target with the image of the
sources: their rows side by side, position by position. The kernel and the split into parallel tasks
make no difference. Main statements: `interleave_eq`, `runTasks_eq`, `fill_eq`.
-/

namespace ChannelConcat.Concat

/-- The buffers have the element type, the number and the lengths that the shapes ask for. -/
structure Matches (concat : Concat) (scalar : Scalar) (sources : List (Array scalar.Value))
    (target : Array scalar.Value) : Prop where
  elem : scalar.elem = concat.output.elem
  length : sources.length = concat.inputs.length
  sources : ∀ pair ∈ sources.zip concat.inputs,
    pair.1.size = pair.2.positions * pair.2.channels
  target : target.size = concat.output.positions * concat.output.channels

/-- The row at a position: the rows of the sources there side by side, clamped if asked for. -/
def imageRow (concat : Concat) (scalar : Scalar) (sources : List (Array scalar.Value))
    (index : Nat) : List scalar.Value :=
  interleaved (concat.onElement scalar) (sources.zip concat.channels) index

/-- The rows at all positions, one behind the other. -/
def image (concat : Concat) (scalar : Scalar) (sources : List (Array scalar.Value)) :
    List scalar.Value :=
  (List.range concat.output.positions).flatMap (concat.imageRow scalar sources)

variable {concat : Concat} {scalar : Scalar} {sources : List (Array scalar.Value)}
  {target : Array scalar.Value}

/-- The channels of the inputs of a valid concatenation are those of its output. -/
theorem Valid.sum_channels (h : concat.Valid) : concat.channels.sum = concat.output.channels :=
  h.fit.channels

/-- Each source has a row at every position. -/
theorem Valid.hasRow (h : concat.Valid) (hmatches : concat.Matches scalar sources target)
    {index : Nat} (hindex : index < concat.output.positions) :
    ∀ source ∈ sources.zip concat.channels, Buffer.HasRow source.2 index source.1 := by
  intro source hsource
  rw [channels, List.zip_map_right] at hsource
  obtain ⟨pair, hpair, rfl⟩ := List.mem_map.1 hsource
  have hinput := (List.of_mem_zip hpair).2
  have hpositions := (h.fit.beside _ hinput).pixels_eq.2
  have hstop : (index + 1) * pair.2.channels ≤ pair.2.positions * pair.2.channels := by
    rw [hpositions]
    exact Nat.mul_le_mul_right _ hindex
  exact ⟨hmatches.sources pair hpair ▸ hstop,
    Nat.lt_of_le_of_lt hstop (h.fit.inputElements _ hinput)⟩

/-- The number of sources that match is that of the channel counts. -/
theorem Matches.length_channels (h : concat.Matches scalar sources target) :
    sources.length = concat.channels.length := by
  rw [channels, List.length_map, h.length]

/-- The rows of all sources together are as wide as the output has channels. -/
theorem Valid.length_imageRow (h : concat.Valid) (hmatches : concat.Matches scalar sources target)
    {index : Nat} (hindex : index < concat.output.positions) :
    (concat.imageRow scalar sources index).length = concat.output.channels := by
  have hlengths := hmatches.length_channels
  rw [imageRow, length_interleaved (h.hasRow hmatches hindex),
    List.map_snd_zip (Nat.le_of_eq hlengths.symm), h.sum_channels]

/-- The image fills the target exactly. -/
theorem Valid.length_image (h : concat.Valid) (hmatches : concat.Matches scalar sources target) :
    (concat.image scalar sources).length = target.size := by
  rw [image, length_flatMap_rows fun index hindex =>
    h.length_imageRow hmatches (List.mem_range.1 hindex), List.length_range, hmatches.target]

/-- The image of an empty target is empty. -/
theorem Valid.toArray_image_of_size_eq_zero (h : concat.Valid)
    (hmatches : concat.Matches scalar sources target) (hempty : target.size = 0) :
    (concat.image scalar sources).toArray = target := by
  rw [List.eq_nil_of_length_eq_zero ((h.length_image hmatches).trans hempty),
    Array.eq_empty_of_size_eq_zero hempty]

/-- The sources of a valid concatenation have rows of whole blocks, few enough for a block
counter. -/
theorem Valid.hasBlocks (h : concat.Valid) (hmatches : concat.Matches scalar sources target)
    {block index : Nat} (hwhole : ∀ input ∈ concat.inputs, input.channels % block = 0)
    (hfew : ∀ input ∈ concat.inputs, input.channels / block < 2 ^ 31)
    (hindex : index < concat.output.positions) :
    ∀ source ∈ sources.zip concat.channels, HasBlocks block index source := by
  intro source hsource
  obtain ⟨input, hinput, hchannels⟩ := List.mem_map.1 (List.of_mem_zip hsource).2
  exact ⟨h.hasRow hmatches hindex source hsource, hchannels ▸ hwhole input hinput,
    hchannels ▸ hfew input hinput⟩

/-- The routine of a valid concatenation is for a plan of its shapes, and the block counts are those
of its sources, which all have whole blocks. -/
theorem Valid.exists_settled (h : concat.Valid) {handle : Handle} {counts : List (BitVec 32)}
    (hkernel : concat.kernel = .generated handle counts)
    (hmatches : concat.Matches scalar sources target) :
    ∃ maxBits block,
      Plan.Settled maxBits concat.inputs concat.output concat.relu handle.routine.spec block ∧
      (counts = (sources.zip concat.channels).map fun source => channelBlocks block source.2) ∧
      ∀ index < concat.output.positions,
        ∀ source ∈ sources.zip concat.channels, HasBlocks block index source := by
  have hserves := h.kernel
  rw [hkernel] at hserves
  obtain ⟨maxBits, block, hsettled, hfew, rfl⟩ := hserves
  refine ⟨maxBits, block, hsettled, ?_,
    fun index hindex => h.hasBlocks hmatches hsettled.whole hfew hindex⟩
  rw [← Function.comp_def (channelBlocks block) Prod.snd, ← List.map_map,
    List.map_snd_zip (Nat.le_of_eq hmatches.length_channels.symm), channels, List.map_map]
  rfl

/-- Either kernel fills a part of the target that is whole rows with the rows of the image there. -/
theorem Valid.fillFrom_eq (h : concat.Valid) (hmatches : concat.Matches scalar sources target)
    (hpos : 0 < concat.output.channels) {first rows : Nat}
    (hrows : first + rows ≤ concat.output.positions) {part : Array scalar.Value}
    (hpart : part.size = rows * concat.output.channels) :
    concat.fillFrom scalar sources first part =
      ⟨((List.range rows).flatMap fun k => concat.imageRow scalar sources (first + k)).toArray,
        none⟩ := by
  have hlengths := hmatches.length_channels
  have hsum := h.sum_channels
  have hindex (k : Nat) (hk : k < rows) : first + k < concat.output.positions := by omega
  unfold fillFrom
  cases hkernel : concat.kernel with
  | scalar =>
      exact interleaveFrom_eq hlengths (hsum ▸ h.fit.channels_lt) (hsum ▸ hpos)
        (hsum ▸ hpart) fun k hk => h.hasRow hmatches (hindex k hk)
  | generated handle counts =>
      obtain ⟨maxBits, block, hsettled, rfl, hblocks⟩ := h.exists_settled hkernel hmatches
      -- An output with channels has inputs, so the stride of the routine is worked out.
      have hnonempty : concat.inputs ≠ [] := by
        intro hnil
        rw [← hsum, channels, hnil] at hpos
        exact Nat.lt_irrefl _ hpos
      have hwidth : ((sources.zip concat.channels).map Prod.snd).sum = concat.output.channels := by
        rw [List.map_snd_zip (Nat.le_of_eq hlengths.symm), hsum]
      simp only [generatedFrom, Size.sum_eq_ok_iff.2 ⟨hsum, h.fit.channels_lt⟩]
      refine Buffer.fillRows_eq hpart hpos
        (fun k hk => h.length_imageRow hmatches (hindex k hk)) fun k hk current hcurrent => ?_
      have hlast := Nat.mul_le_mul_right concat.output.channels (Nat.succ_le_of_lt hk)
      rw [Nat.succ_mul] at hlast
      have hrow := generatedRow_eq hsettled hmatches.elem
        (by rw [List.length_zip, ← hlengths, Nat.min_self, hmatches.length]) hnonempty
        (hblocks _ (hindex k hk))
        (show k * concat.output.channels + ((sources.zip concat.channels).map Prod.snd).sum ≤
          current.size by rw [hwidth, hcurrent, hpart]; exact hlast)
      rw [hwidth] at hrow
      exact hrow

/-- The serial run of a valid concatenation leaves the image of the sources. -/
theorem Valid.serial_eq (h : concat.Valid) (hmatches : concat.Matches scalar sources target)
    (hpos : 0 < concat.output.channels) :
    concat.fillFrom scalar sources 0 target = ⟨(concat.image scalar sources).toArray, none⟩ := by
  rw [h.fillFrom_eq hmatches hpos (Nat.le_of_eq (Nat.zero_add _)) hmatches.target]
  simp only [Nat.zero_add]
  rfl

/-- The copy element by element fills a target that fits with the image of the sources. -/
theorem Valid.interleave_eq (h : concat.Valid) (hmatches : concat.Matches scalar sources target) :
    interleave (concat.onElement scalar) sources concat.channels target =
      ⟨(concat.image scalar sources).toArray, none⟩ := by
  have hsum := h.sum_channels
  exact ChannelConcat.interleave_eq hmatches.length_channels (hsum ▸ h.fit.channels_lt)
    (hsum ▸ hmatches.target) fun k hk => h.hasRow hmatches hk

/-! ## Parallel tasks -/

/-- The number of positions of a task is that of all positions over four tasks for each thread,
rounded up, and at least one. -/
theorem taskPixels_eq {threads : Nat} (hthreads : 0 < threads)
    (hlimit : threads * 4 < Size.limit) (pixels : Nat) :
    taskPixels threads pixels = .ok (max 1 ((pixels + threads * 4 - 1) / (threads * 4))) := by
  rw [taskPixels, Size.mul_eq_ok_iff.2 ⟨rfl, hlimit⟩]
  exact if_neg (by omega)

/-- The number of positions of a task: at least one, and no more than there are. -/
theorem exists_taskPixels {threads pixels : Nat} (hthreads : 0 < threads)
    (hlimit : threads * 4 < Size.limit) (hpixels : 0 < pixels) :
    ∃ perTask, taskPixels threads pixels = .ok perTask ∧ 0 < perTask ∧ perTask ≤ pixels := by
  refine ⟨_, taskPixels_eq hthreads hlimit pixels, by omega,
    Nat.max_le.2 ⟨hpixels, Nat.div_le_of_le_mul ?_⟩⟩
  obtain ⟨tasks, htasks⟩ := Nat.exists_eq_add_one_of_ne_zero
    (show threads * 4 ≠ 0 by omega)
  obtain ⟨last, rfl⟩ := Nat.exists_eq_add_one_of_ne_zero (Nat.pos_iff_ne_zero.1 hpixels)
  rw [htasks, Nat.succ_mul, Nat.mul_succ]
  omega

/-- The rows of the image that belong to a chunk of whole rows. -/
theorem Valid.take_drop_image (h : concat.Valid)
    (hmatches : concat.Matches scalar sources target) (first rows : Nat) :
    ((concat.image scalar sources).drop (first * concat.output.channels)).take
        (rows * concat.output.channels) =
      (List.range (min rows (concat.output.positions - first))).flatMap fun k =>
        concat.imageRow scalar sources (first + k) := by
  have hlength (index : Nat) (hindex : index ∈ List.range concat.output.positions) :=
    h.length_imageRow hmatches (List.mem_range.1 hindex)
  rw [image, drop_flatMap_rows hlength, take_flatMap_rows fun index hindex =>
    hlength index (List.mem_of_mem_drop hindex), List.range_eq_range', List.drop_range',
    List.range'_eq_map_range, ← List.map_take, List.take_range, List.flatMap_map]
  simp only [Nat.zero_add, Nat.mul_one]

/-- The rows of the image are the rows that it is made of. -/
theorem Valid.rowItems_image (h : concat.Valid) (hmatches : concat.Matches scalar sources target)
    {index : Nat} (hindex : index < concat.output.positions) :
    Buffer.rowItems (concat.image scalar sources).toArray concat.output.channels index =
      concat.imageRow scalar sources index :=
  Buffer.rowItems_flatMap_range (fun _ hk => h.length_imageRow hmatches hk) hindex

/-- A task puts its chunk of the image in place. -/
theorem Valid.runTask_eq (h : concat.Valid) (hmatches : concat.Matches scalar sources target)
    (hpos : 0 < concat.output.channels) (hlimit : concat.output.positions < Size.limit)
    {perTask task : Nat} (htask : task * perTask < concat.output.positions)
    {current : Array scalar.Value} (hsize : current.size = target.size) :
    concat.runTask scalar sources perTask (perTask * concat.output.channels) current task =
      ⟨Buffer.overwrite current (task * (perTask * concat.output.channels))
        (((concat.image scalar sources).drop (task * (perTask * concat.output.channels))).take
          (perTask * concat.output.channels)), none⟩ := by
  have hrows : task * perTask + min perTask (concat.output.positions - task * perTask) ≤
      concat.output.positions := by omega
  have hpart : (current.extract (task * (perTask * concat.output.channels))
      (task * (perTask * concat.output.channels) + perTask * concat.output.channels)).size =
      min perTask (concat.output.positions - task * perTask) * concat.output.channels := by
    rw [Array.size_extract, hsize, hmatches.target, ← Nat.mul_assoc, ← Nat.add_mul,
      Nat.mul_min_mul_right, ← Nat.sub_mul]
    congr 1
    omega
  rw [runTask, Size.mul_eq_ok_iff.2 ⟨rfl, Nat.lt_trans htask hlimit⟩]
  simp only [h.fillFrom_eq hmatches hpos hrows hpart]
  rw [← Nat.mul_assoc, h.take_drop_image hmatches]

/-- Tasks that run in any order put the whole image in place, if each of them runs and no other. -/
theorem Valid.runTasks_eq (h : concat.Valid) (hmatches : concat.Matches scalar sources target)
    (hpos : 0 < concat.output.channels) (hlimit : concat.output.positions < Size.limit)
    {perTask : Nat} (hperTask : 0 < perTask) {order : List Nat}
    (horder : ∀ task, task ∈ order ↔ task * perTask < concat.output.positions) :
    concat.runTasks scalar sources perTask (perTask * concat.output.channels) order target =
      ⟨(concat.image scalar sources).toArray, none⟩ := by
  have hchunk := Nat.mul_pos hperTask hpos
  rw [runTasks, Filled.foldl_andThen (fun _ _ _ hsize => (Buffer.size_overwrite ..).trans hsize)
    (fun task htask current hsize =>
      h.runTask_eq hmatches hpos hlimit ((horder task).1 htask) hsize) rfl]
  congr 1
  -- Every index inside the target belongs to a chunk, and the order of the chunks is of no account.
  apply Array.ext_getElem?
  intro i
  have himage : (concat.image scalar sources).toArray[i]? = (concat.image scalar sources)[i]? :=
    List.getElem?_toArray ..
  rw [Buffer.getElem?_foldl_overwrite_pieces hchunk order (h.length_image hmatches).symm, himage]
  by_cases hi : i < target.size
  · rw [if_pos ((horder _).2 ?_)]
    rw [hmatches.target] at hi
    rw [Nat.mul_comm perTask, ← Nat.div_div_eq_div_mul]
    exact Nat.lt_of_le_of_lt (Nat.div_mul_le_self ..) ((Nat.div_lt_iff_lt_mul hpos).2 hi)
  · rw [Array.getElem?_eq_none (Nat.le_of_not_lt hi),
      List.getElem?_eq_none (h.length_image hmatches ▸ Nat.le_of_not_lt hi), ite_self]

/-- The chunks of a length, the last of them cut short, are those that begin inside it. -/
theorem lt_chunks_iff {chunk total task : Nat} (hchunk : 0 < chunk) :
    task < (total + chunk - 1) / chunk ↔ task * chunk < total := by
  rw [← Nat.succ_le_iff, Nat.le_div_iff_mul_le hchunk, Nat.succ_mul]
  omega

/-- A target that fits is filled with the image of the sources, whatever the number of threads. -/
theorem Valid.fill_eq (h : concat.Valid) (hmatches : concat.Matches scalar sources target)
    {threads pixels : Nat} (hthreads : 0 < threads) (hlimit : threads * 4 < Size.limit)
    (hpixels : concat.output.pixels = .ok pixels) :
    concat.fill threads scalar sources target =
      ⟨(concat.image scalar sources).toArray, none⟩ := by
  obtain ⟨-, rfl, hpositions⟩ := Tensor.pixels_eq_ok_iff.1 hpixels
  rw [fill, hpixels]
  simp only
  split
  · rename_i hnone
    have hempty : target.size = 0 := by
      rcases hnone with hchannels | hpositions
      · rw [hmatches.target, hchannels, Nat.mul_zero]
      · rw [hmatches.target, hpositions, Nat.zero_mul]
    rw [h.toArray_image_of_size_eq_zero hmatches hempty]
  · rename_i hsome
    have hpos : 0 < concat.output.channels := by omega
    have hpixelsPos : 0 < concat.output.positions := by omega
    split
    · exact h.serial_eq hmatches hpos
    · -- A task has no more positions than there are, so its chunk is no longer than the target.
      obtain ⟨perTask, hperTask, hperTaskPos, hle⟩ :=
        exists_taskPixels hthreads hlimit hpixelsPos
      have hchunk : perTask * concat.output.channels < Size.limit :=
        Nat.lt_of_le_of_lt (Nat.mul_le_mul_right _ hle) h.fit.outputElements
      rw [runParallel, hperTask]
      simp only [bind, Except.bind, Size.mul_eq_ok_iff.2 ⟨rfl, hchunk⟩, pure, Except.pure]
      refine h.runTasks_eq hmatches hpos hpositions hperTaskPos ?_
      intro task
      rw [List.mem_range, hmatches.target, lt_chunks_iff (Nat.mul_pos hperTaskPos hpos),
        ← Nat.mul_assoc, Nat.mul_lt_mul_right hpos]

end ChannelConcat.Concat
