import ChannelConcat.Refusal
import ChannelConcat.Spec
import ChannelConcat.X86.Assembly

/-!
# The code of a copy routine

A copy routine takes one descriptor with the addresses of a table of sources, a table of block
counts and the destination. For each input in turn it copies that many blocks from the source to the
destination, clamping them on the way if its specification says so; both cursors advance by the same
stride after each block, and the destination cursor runs on through all inputs. Main definitions:
`Program.items`, `generate`.
-/

namespace ChannelConcat

/-- What a routine is generated from, besides the vector instructions. -/
structure LoopBounds where
  /-- The number of inputs, as the signed word it is compared with. -/
  inputs : BitVec 32
  /-- The number of bytes by which both cursors advance, as a signed word. -/
  stride : BitVec 32
  deriving DecidableEq

namespace Program

open X86

/-- The entry: keep the frame pointer, read the descriptor, clear the zeros to clamp against. -/
def entry : List Item :=
  [.plain .pushRbp, .plain .movRbpRsp, .plain .loadRsi, .plain .loadRdx, .plain .loadR8,
    .plain .clearV0]

/-- The work on one block. -/
def block (selection : Selection) : List Item :=
  [.plain (.loadV1 selection.width)] ++
  (selection.clamp.toList.map fun clamp => .plain (.clampV1 selection.width clamp)) ++
  [.plain (.storeV1 selection.width)]

/-- The work on one input: its blocks one by one, none if the count is not positive. -/
def input (selection : Selection) (stride : BitVec 32) : List Item :=
  [.plain .loadEax, .plain .loadRcx, .plain (.cmp .eax 0), .branch .lessOrEqual .inputDone,
    .mark .nextBlock] ++
  block selection ++
  [.plain (.add .rcx stride), .plain (.add .r8 stride), .plain .decEax,
    .branch .greater .nextBlock, .mark .inputDone]

/-- The work on all inputs, at least one. -/
def inputs (selection : Selection) (bounds : LoopBounds) : List Item :=
  [.plain .clearR9, .mark .nextInput] ++
  input selection bounds.stride ++
  [.plain (.add .rsi 8), .plain (.add .rdx 4), .plain .incR9,
    .plain (.cmp .r9d bounds.inputs), .branch .less .nextInput]

/-- The exit: leave the vector registers clean, restore the frame pointer, return. -/
def exit : List Item :=
  [.plain .clearUpper, .plain .popRbp, .plain .ret]

/-- The whole routine. There is no work on inputs if their number is not positive as a signed
word. -/
def items (selection : Selection) (bounds : LoopBounds) : List Item :=
  entry ++ (if 0 < bounds.inputs.toInt then inputs selection bounds else []) ++ exit

end Program

/-- The bounds of the loops of a routine: the number of inputs and the stride, reduced to signed
words. The stride is computed only if there is work on inputs. -/
def Spec.loopBounds (spec : Spec) : Except Fault LoopBounds :=
  let inputs := BitVec.ofNat 32 spec.inputs
  if 0 < inputs.toInt then
    spec.blockBytes.map fun stride => ⟨inputs, BitVec.ofNat 32 stride⟩
  else .ok ⟨inputs, 0⟩

/-- The machine code of a routine for a level: first its instructions are selected, then the level
is checked against them, then the code is assembled. -/
def Spec.codeFor (isa : Isa) (spec : Spec) : Except Failure (List Byte) := do
  let selection ← orFault (select spec.bits spec.elem spec.relu)
  if selection.width.isa ≤ isa then
    let bounds ← orFault spec.loopBounds
    match X86.assemble (Program.items selection bounds) with
    | some instrs => return X86.encode instrs
    | none => refuse (.code .branchReach)
  else refuse (.unsupported (.level spec.bits selection.width.isa isa))

/-- Generate the machine code of a routine for a level, which must have vector instructions. -/
def generate (isa : Isa) (spec : Spec) : Except Failure (List Byte) :=
  if isa.hasVectors then spec.codeFor isa
  else refuse (.unsupported (.generator isa))

end ChannelConcat
