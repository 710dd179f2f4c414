import ChannelConcat.Compiler
import ChannelConcat.Shape

/-!
# Preparing a concatenation

A concatenation is prepared once for fixed inputs and a fixed output: the shapes are checked and a
kernel is picked, which is a generated routine that is run for every row, or the copy element by
element where no routine can be had. Main definitions: `Concat`, `Concat.prepare`.
-/

namespace ChannelConcat

/-- How the rows of a concatenation are filled. -/
inductive Kernel where
  /-- By a generated routine with these block counts. -/
  | generated (handle : Handle) (counts : List (BitVec 32))
  /-- Element by element. -/
  | scalar

/-- A concatenation of fixed inputs into a fixed output. -/
structure Concat where
  inputs : List Tensor
  output : Tensor
  /-- Negative elements become zero. -/
  relu : Bool
  /-- The number of positions from which the work is split into parallel tasks. -/
  parallelFrom : Nat
  kernel : Kernel

namespace Concat

/-- The channel counts of the inputs. -/
def channels (concat : Concat) : List Nat :=
  concat.inputs.map Tensor.channels

/-- The rows are filled by a generated routine. -/
def isGenerated (concat : Concat) : Bool :=
  match concat.kernel with
  | .generated _ _ => true
  | .scalar => false

/-- The specification of the generated routine, if there is one. -/
def spec? (concat : Concat) : Option Spec :=
  match concat.kernel with
  | .generated handle _ => some handle.routine.spec
  | .scalar => none

/-- The number that the block counter of a routine is loaded with for an input, if it fits into a
signed word. -/
def blockCount (spec : Spec) (input : Tensor) : Except Failure (BitVec 32) := do
  let blocks ← orFault (spec.blocksIn input.channels)
  if blocks < 0x80000000 then return BitVec.ofNat 32 blocks
  else refuse (.unsupported (.blockCounter input.channels))

/-- The refusal only says that no routine fits the shapes, so that the rows can still be filled
element by element. -/
def allowsFallback : Refusal → Bool
  | .noBlock _ | .unsupported _ => true
  | _ => false

/-- Pick the kernel for inputs and an output whose shapes fit. -/
def chooseKernel (compiler : Compiler) (inputs : List Tensor) (output : Tensor) (relu : Bool) :
    Response Kernel :=
  if compiler.canRun then
    let compiled := compiler.compile inputs output relu
    match compiled.result with
    | .ok handle =>
        ⟨(inputs.mapM (blockCount handle.routine.spec)).map (.generated handle), compiled.compiler,
          compiled.events⟩
    | .error (.refusal cause) =>
        if allowsFallback cause then
          ⟨.ok .scalar, compiled.compiler, compiled.events ++ [.fallback cause]⟩
        else ⟨refuse cause, compiled.compiler, compiled.events⟩
    | .error (.fault fault) => ⟨breach fault, compiled.compiler, compiled.events⟩
  else ⟨.ok .scalar, compiler, [.unavailable compiler.isa]⟩

/-- Prepare a concatenation: check the shapes, then pick the kernel. -/
def prepare (compiler : Compiler) (inputs : List Tensor) (output : Tensor) (relu : Bool) :
    Response Concat :=
  match Shape.defect inputs output with
  | some defect => ⟨refuse defect, compiler, []⟩
  | none =>
      (chooseKernel compiler inputs output relu).andThen fun compiler kernel =>
        ⟨.ok ⟨inputs, output, relu, compiler.options.parallelFrom, kernel⟩, compiler, []⟩

end Concat

end ChannelConcat
