import Mathlib.Algebra.Order.Floor.Div
import Mathlib.GroupTheory.GroupAction.Ring
import ChannelConcat.Proofs.Checks

/-!
# Parallel tasks

Parallel tasks share out the target in chunks of whole rows. Each element belongs to one chunk, and
what a task writes depends on its chunk alone, so that the order of the tasks cannot be observed.
Main definitions: `SharedOut`, `OrderFree`. Main statements: `sharedOut_of_size`,
`parallel_eq_serial`.
-/

namespace ChannelConcat.Concat

/-- The tasks for a buffer of `size` elements in chunks of the given length. -/
def tasks (size chunk : Nat) : List Nat :=
  List.range ((size + chunk - 1) / chunk)

/-- A buffer of rows of the given width for `pixels` positions is shared out in chunks of `perTask`
rows. All products are sizes, each chunk is whole rows from the first position of its task on, and
each index belongs to one chunk. -/
structure SharedOut {α : Type} (buffer : Array α) (width pixels perTask : Nat) : Prop where
  chunk_eq : Size.mul perTask width = .ok (perTask * width)
  first_eq : ∀ task ∈ tasks buffer.size (perTask * width),
    Size.mul task perTask = .ok (task * perTask) ∧
      Size.mul task (perTask * width) = .ok (task * perTask * width)
  whole : ∀ task ∈ tasks buffer.size (perTask * width), ∃ rows, 0 < rows ∧ rows ≤ perTask ∧
    task * perTask + rows ≤ pixels ∧
      (buffer.extract (task * (perTask * width))
        (task * (perTask * width) + perTask * width)).size = rows * width
  existsUnique : ∀ k < buffer.size, ∃! task, task ∈ tasks buffer.size (perTask * width) ∧
    task * (perTask * width) ≤ k ∧ k < task * (perTask * width) + perTask * width

/-- The order of tasks on chunks of the given length cannot be observed: each of them writes its own
chunk and nothing else, always the same elements, and in any order they leave what the serial run
leaves. -/
structure OrderFree (concat : Concat) (scalar : Scalar) (sources : List (Array scalar.Value))
    (target : Array scalar.Value) (perTask chunk : Nat) : Prop where
  writes_chunk : ∀ task ∈ tasks target.size chunk, ∃ items : List scalar.Value,
    items.length = (target.extract (task * chunk) (task * chunk + chunk)).size ∧
      ∀ current : Array scalar.Value, current.size = target.size →
        concat.runTask scalar sources perTask chunk current task =
          ⟨Buffer.overwrite current (task * chunk) items, none⟩
  runTasks_eq : ∀ order : List Nat, order.Perm (tasks target.size chunk) →
    concat.runTasks scalar sources perTask chunk order target =
      concat.fillFrom scalar sources 0 target
  fault_eq : (concat.fillFrom scalar sources 0 target).fault = none

variable {concat : Concat} {scalar : Scalar} {sources : List (Array scalar.Value)}
  {target : Array scalar.Value} {perTask task : Nat}

/-- The tasks are those whose chunk begins inside the buffer. -/
theorem mem_tasks_iff {size chunk : Nat} (hchunk : 0 < chunk) :
    task ∈ tasks size chunk ↔ task * chunk < size := by
  rw [tasks, List.mem_range, lt_chunks_iff hchunk]

/-- In a buffer of whole rows the tasks are those whose first position there is. -/
theorem mem_tasks_iff_first {size width pixels : Nat} (hsize : size = pixels * width)
    (hwidth : 0 < width) (hperTask : 0 < perTask) :
    task ∈ tasks size (perTask * width) ↔ task * perTask < pixels := by
  rw [mem_tasks_iff (Nat.mul_pos hperTask hwidth), hsize, ← Nat.mul_assoc,
    Nat.mul_lt_mul_right hwidth]

/-- A buffer of whole rows is shared out by any number of positions for each task. -/
theorem sharedOut_of_size {α : Type} {buffer : Array α} {width pixels : Nat}
    (hsize : buffer.size = pixels * width) (hlimit : pixels * width < Size.limit)
    (hwidth : 0 < width) (hperTask : 0 < perTask) (hle : perTask ≤ pixels) :
    SharedOut buffer width pixels perTask := by
  have hchunk := Nat.mul_pos hperTask hwidth
  have hinside (first : Nat) (hfirst : first ≤ pixels) : first * width < Size.limit :=
    Nat.lt_of_le_of_lt (Nat.mul_le_mul_right width hfirst) hlimit
  refine ⟨Size.mul_eq_ok_iff.2 ⟨rfl, hinside perTask hle⟩, ?_, ?_, ?_⟩
  · intro task htask
    have hfirst := (mem_tasks_iff_first hsize hwidth hperTask).1 htask
    have hoffset := hinside _ (Nat.le_of_lt hfirst)
    exact ⟨Size.mul_eq_ok_iff.2
        ⟨rfl, Nat.lt_of_le_of_lt (Nat.le_mul_of_pos_right _ hwidth) hoffset⟩,
      Size.mul_eq_ok_iff.2 ⟨(Nat.mul_assoc ..).symm, hoffset⟩⟩
  · -- The last chunk is cut short where the positions end.
    intro task htask
    have hfirst := (mem_tasks_iff_first hsize hwidth hperTask).1 htask
    refine ⟨min perTask (pixels - task * perTask), by omega, by omega, by omega, ?_⟩
    rw [Array.size_extract, hsize, ← Nat.mul_assoc, ← Nat.add_mul, Nat.mul_min_mul_right,
      ← Nat.sub_mul]
    congr 1
    omega
  · intro k hk
    have hbegin := Nat.div_mul_le_self k (perTask * width)
    refine ⟨k / (perTask * width), ⟨(mem_tasks_iff hchunk).2 (Nat.lt_of_le_of_lt hbegin hk), hbegin,
      Nat.lt_div_mul_add hchunk⟩, ?_⟩
    rintro task ⟨-, hlow, hhigh⟩
    exact ((Nat.div_eq_iff hchunk).2 ⟨hlow, by omega⟩).symm

/-- The order of the tasks of a valid concatenation cannot be observed. -/
theorem Valid.orderFree (h : concat.Valid) (hmatches : concat.Matches scalar sources target)
    (hchannels : 0 < concat.output.channels) (hlimit : concat.output.positions < Size.limit)
    (hperTask : 0 < perTask) :
    concat.OrderFree scalar sources target perTask (perTask * concat.output.channels) := by
  refine ⟨?_, ?_, congrArg Filled.fault (h.serial_eq hmatches hchannels)⟩
  · intro task htask
    rw [mem_tasks_iff_first hmatches.target hchannels hperTask] at htask
    refine ⟨_, ?_, fun current hsize => h.runTask_eq hmatches hchannels hlimit htask hsize⟩
    rw [List.length_take, List.length_drop, h.length_image hmatches, Array.size_extract]
    omega
  · intro order horder
    rw [h.serial_eq hmatches hchannels]
    refine h.runTasks_eq hmatches hchannels hlimit hperTask fun task => ?_
    rw [horder.mem_iff, mem_tasks_iff_first hmatches.target hchannels hperTask]

/-- Parallel execution cannot be observed. Whatever the number of threads, an accepted concatenation
shares out a target that fits in chunks of whole rows, and the tasks leave in any order what the
serial run leaves, which is also what execution leaves. -/
theorem parallel_eq_serial {compiler : Compiler} {inputs : List Tensor} {output : Tensor}
    {relu : Bool} (haccepted : (prepare compiler inputs output relu).result = .ok concat)
    {threads pixels : Nat} (hthreads : 0 < threads) (hlimit : threads * 4 < Size.limit)
    (hbuffers : concat.checkBuffers scalar.elem sources target = .ok ())
    (hpixels : output.pixels = .ok pixels) (hsome : 0 < pixels) (hchannels : 0 < output.channels) :
    ∃ perTask, taskPixels threads pixels = .ok perTask ∧
      perTask = max 1 (pixels ⌈/⌉ (threads * 4)) ∧
      SharedOut target output.channels pixels perTask ∧
      concat.OrderFree scalar sources target perTask (perTask * output.channels) ∧
      concat.execute threads scalar sources target =
        ((concat.fillFrom scalar sources 0 target).buffer, .ok ()) := by
  obtain ⟨hvalid, rfl, rfl, -⟩ := valid_of_prepare haccepted
  have hmatches := ((hvalid.checkBuffers_cases hpixels sources target).1).1 hbuffers
  have hexecute := hvalid.execute_of_matches hpixels hmatches hthreads hlimit
  obtain ⟨-, rfl, hpositions⟩ := Tensor.pixels_eq_ok_iff.1 hpixels
  obtain ⟨perTask, hperTask, hpos, hle⟩ := exists_taskPixels hthreads hlimit hsome
  refine ⟨perTask, hperTask, ?_,
    sharedOut_of_size hmatches.target hvalid.fit.outputElements hchannels hpos hle,
    hvalid.orderFree hmatches hchannels hpositions hpos, ?_⟩
  · rw [Nat.ceilDiv_eq_add_pred_div]
    exact Except.ok.inj (hperTask.symm.trans (taskPixels_eq hthreads hlimit _))
  · rw [hexecute, hvalid.serial_eq hmatches hchannels]

/-- Ten positions in four tasks, the last of them for one position only. -/
theorem parallel_eq_serial_ten_positions :
    let inputs : List Tensor := [.interleaved .s8 ⟨1, 2, 5, 2⟩, .interleaved .s8 ⟨1, 2, 5, 1⟩]
    let output : Tensor := .interleaved .s8 ⟨1, 2, 5, 3⟩
    let sources : List (Array Scalar.s8.Value) := [Array.replicate 20 3, Array.replicate 10 255]
    let target : Array Scalar.s8.Value := Array.replicate 30 7
    ∃ concat,
      (prepare { host := .avx512, isa := .scalar, options := { parallelFrom := 0 } } inputs output
        true).result = .ok concat ∧
      0 < 1 ∧ 1 * 4 < Size.limit ∧ concat.checkBuffers .s8 sources target = .ok () ∧
      output.pixels = .ok 10 ∧ 0 < 10 ∧ 0 < output.channels ∧
      ∃ perTask, taskPixels 1 10 = .ok perTask ∧
        perTask = max 1 (10 ⌈/⌉ (1 * 4)) ∧
        SharedOut target output.channels 10 perTask ∧
        concat.OrderFree .s8 sources target perTask (perTask * output.channels) ∧
        concat.execute 1 .s8 sources target =
          ((concat.fillFrom .s8 sources 0 target).buffer, .ok ()) := by
  intro inputs output sources target
  have haccepted : (prepare { host := .avx512, isa := .scalar, options := { parallelFrom := 0 } }
      inputs output true).result = .ok ⟨inputs, output, true, 0, .scalar⟩ := rfl
  have hbuffers : (Concat.mk inputs output true 0 .scalar).checkBuffers Scalar.s8.elem sources
      target = .ok () := rfl
  have hpixels : output.pixels = .ok 10 := rfl
  exact ⟨_, haccepted, by decide, by decide, hbuffers, hpixels, by decide, by decide,
    parallel_eq_serial haccepted (by decide) (by decide) hbuffers hpixels (by decide) (by decide)⟩

end ChannelConcat.Concat
