import ChannelConcat.Concat.Prepare
import ChannelConcat.Interleave
import ChannelConcat.Scalar

/-!
# Executing a concatenation

A prepared concatenation can be executed on any buffers that fit its shapes. The buffers are
checked, then the rows of the target are filled: all in one go if there are few positions, and in
parallel tasks on chunks of whole rows otherwise. Main definition: `Concat.execute`.
-/

namespace ChannelConcat.Concat

/-- Check the lengths of the source buffers against the element counts of their inputs. -/
def checkSources {α : Type} (concat : Concat) (sources : List (Array α)) : Except Failure Unit :=
  (sources.zip concat.inputs).zipIdx.forM fun entry => do
    let expected ← orFault entry.1.2.elements
    if entry.1.1.size = expected then return ()
    else refuse (.shape (.sourceLength entry.2 expected entry.1.1.size))

/-- Check buffers of elements of the given type against the shapes: the element type, the number of
sources, the length of each source in order, the length of the target. -/
def checkBuffers {α : Type} (concat : Concat) (elem : ElemType) (sources : List (Array α))
    (target : Array α) : Except Failure Unit := do
  if elem ≠ concat.output.elem then refuse (.bufferElem concat.output.elem elem)
  else if sources.length ≠ concat.inputs.length then
    refuse (.shape (.sources concat.inputs.length sources.length))
  else
    concat.checkSources sources
    let expected ← orFault concat.output.elements
    if target.size = expected then return ()
    else refuse (.shape (.targetLength expected target.size))

/-- The change of each element on its way: the clamp, if there is one. -/
def onElement (concat : Concat) (scalar : Scalar) : scalar.Value → scalar.Value :=
  if concat.relu then scalar.clamp else id

/-- Fill one row of the target with a generated routine. It is run on the bytes of the rows of the
sources and of the row of the target. -/
def generatedRow (routine : Routine) (counts : List (BitVec 32)) (scalar : Scalar)
    (sources : List (Array scalar.Value × Nat)) (width index offset : Nat)
    (target : Array scalar.Value) : Filled scalar.Value :=
  let filled : Except Fault (List scalar.Value) := do
    let rows ← sources.mapM fun source => Buffer.row source.1 source.2 index
    let old := Buffer.stretch target offset (offset + width)
    let bytes ← routine.copy counts (rows.map (Buffer.bytesOf scalar.bytes))
      (Buffer.bytesOf scalar.bytes old)
    return Buffer.wordsOf scalar.bytes bytes
  match filled with
  | .ok row => ⟨Buffer.overwrite target offset row, none⟩
  | .error fault => ⟨target, some fault⟩

/-- Fill all rows of the target with a generated routine, the first of them with row `first` of the
sources. -/
def generatedFrom (routine : Routine) (counts : List (BitVec 32)) (scalar : Scalar)
    (sources : List (Array scalar.Value)) (channels : List Nat) (first : Nat)
    (target : Array scalar.Value) : Filled scalar.Value :=
  match Size.sum channels with
  | .error fault => ⟨target, some fault⟩
  | .ok width =>
      Buffer.fillRows (generatedRow routine counts scalar (sources.zip channels) width)
        width first target

/-- Fill all rows of the target with the kernel of the concatenation, the first of them with row
`first` of the sources. -/
def fillFrom (concat : Concat) (scalar : Scalar) (sources : List (Array scalar.Value))
    (first : Nat) (target : Array scalar.Value) : Filled scalar.Value :=
  match concat.kernel with
  | .generated handle counts =>
      generatedFrom handle.routine counts scalar sources concat.channels first target
  | .scalar => interleaveFrom (concat.onElement scalar) sources concat.channels first target

/-- The number of positions of one parallel task: the positions are shared out evenly over four
tasks for each worker thread. -/
def taskPixels (threads pixels : Nat) : Except Fault Nat := do
  let tasks ← Size.mul threads 4
  if tasks = 0 then .error .division
  else return max 1 ((pixels + tasks - 1) / tasks)

/-- Run one parallel task: fill the rows of one chunk of the target and put the chunk back. -/
def runTask (concat : Concat) (scalar : Scalar) (sources : List (Array scalar.Value))
    (perTask chunk : Nat) (target : Array scalar.Value) (task : Nat) : Filled scalar.Value :=
  match Size.mul task perTask with
  | .error fault => ⟨target, some fault⟩
  | .ok first =>
      let part := target.extract (task * chunk) (task * chunk + chunk)
      let filled := concat.fillFrom scalar sources first part
      ⟨Buffer.overwrite target (task * chunk) filled.buffer.toList, filled.fault⟩

/-- Run parallel tasks one after the other in the given order. -/
def runTasks (concat : Concat) (scalar : Scalar) (sources : List (Array scalar.Value))
    (perTask chunk : Nat) (order : List Nat) (target : Array scalar.Value) :
    Filled scalar.Value :=
  order.foldl
    (fun filled task => filled.andThen fun buffer =>
      concat.runTask scalar sources perTask chunk buffer task)
    ⟨target, none⟩

/-- Split the work on the target into tasks for the given number of worker threads and run them. -/
def runParallel (concat : Concat) (threads : Nat) (scalar : Scalar)
    (sources : List (Array scalar.Value)) (pixels : Nat) (target : Array scalar.Value) :
    Filled scalar.Value :=
  let sizes : Except Fault (Nat × Nat) := do
    let perTask ← taskPixels threads pixels
    let chunk ← Size.mul perTask concat.output.channels
    return (perTask, chunk)
  match sizes with
  | .error fault => ⟨target, some fault⟩
  | .ok (perTask, chunk) =>
      let tasks := (target.size + chunk - 1) / chunk
      concat.runTasks scalar sources perTask chunk (List.range tasks) target

/-- Fill a target that fits the shapes. Nothing is done if there are no elements; few positions are
done in one go, and many in parallel tasks. -/
def fill (concat : Concat) (threads : Nat) (scalar : Scalar)
    (sources : List (Array scalar.Value)) (target : Array scalar.Value) : Filled scalar.Value :=
  match concat.output.pixels with
  | .error fault => ⟨target, some fault⟩
  | .ok pixels =>
      if concat.output.channels = 0 ∨ pixels = 0 then ⟨target, none⟩
      else if pixels < concat.parallelFrom then concat.fillFrom scalar sources 0 target
      else concat.runParallel threads scalar sources pixels target

/-- Execute a concatenation: check the buffers, then fill the target. The answer is the target
afterwards and what stopped the execution, if anything did. -/
def execute (concat : Concat) (threads : Nat) (scalar : Scalar)
    (sources : List (Array scalar.Value)) (target : Array scalar.Value) :
    Array scalar.Value × Except Failure Unit :=
  match concat.checkBuffers scalar.elem sources target with
  | .error failure => (target, .error failure)
  | .ok () =>
      let filled := concat.fill threads scalar sources target
      match filled.fault with
      | none => (filled.buffer, .ok ())
      | some fault => (filled.buffer, breach fault)

end ChannelConcat.Concat
