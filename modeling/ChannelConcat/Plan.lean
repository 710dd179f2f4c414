import ChannelConcat.Refusal
import ChannelConcat.Spec

/-!
# Planning

The plan for a concatenation takes the largest block of channels that fits the widest allowed
vector and divides the channel count of every input, and checks the inputs against the output.
Main definitions: `blockSizes`, `plan`.
-/

namespace ChannelConcat

namespace Plan

/-- The widths in bits of the vector registers. -/
def registerWidths : List Nat :=
  [128, 256, 512]

/-- The width in bits of the widest vector register. -/
def widest : Nat :=
  512

/-- The most inputs that a routine can count: its counter has 31 bits and a sign. -/
def maxInputs : Nat :=
  0x7FFFFFFF

/-- The block sizes for elements of this many bytes, the largest first: as many elements as fill a
vector register of each width. -/
def blockSizes (elemBytes : Nat) : Except Fault (List Nat) :=
  if elemBytes = 1 then .ok [64, 32, 16]
  else if elemBytes = 4 then .ok [16, 8, 4]
  else .error (.blockSizes elemBytes)

/-- The width in bits of a vector with a whole block. -/
def blockBits (elemBytes block : Nat) : Nat :=
  8 * elemBytes * block

/-- The block divides the channel count of every input. -/
def divides (inputs : List Tensor) (block : Nat) : Bool :=
  inputs.all fun input => input.channels % block = 0

/-- What is wrong with an input, if anything: first its layout, then its element type, then its
channel count. -/
def inputDefect (elem : ElemType) (block : Nat) (input : Tensor) (index : Nat) : Option Refusal :=
  if input.layout ≠ .interleaved then some (.layout index .interleaved input.layout)
  else if input.elem ≠ elem then some (.inputElem index elem input.elem)
  else if input.channels % block ≠ 0 then some (.indivisible index input.channels block)
  else none

/-- The specification of a routine that moves blocks of the given size. -/
def spec (inputs : List Tensor) (output : Tensor) (relu : Bool) (block : Nat) : Spec where
  inputs := inputs.length
  relu := relu
  elem := output.elem
  elemBytes := output.elem.bytes
  block := block
  bits := blockBits output.elem.bytes block
  dims := output.dims

/-- Plan with one of the given block sizes: take the first that divides every channel count, then
check the inputs one by one. -/
def withSizes (sizes : List Nat) (inputs : List Tensor) (output : Tensor) (relu : Bool) :
    Except Failure Spec :=
  match sizes.find? (divides inputs) with
  | none => refuse (.noBlock sizes)
  | some block =>
      match firstDefect (inputDefect output.elem block) inputs with
      | some defect => refuse defect
      | none =>
          if blockBits output.elem.bytes block ∈ registerWidths then
            .ok (spec inputs output relu block)
          else refuse (.vectorWidth (blockBits output.elem.bytes block))

end Plan

/-- Plan the concatenation of the inputs into the output with vectors of at most the given number of
bits. An output that is not channel-interleaved is a fault of the caller. -/
def plan (maxBits : Nat) (inputs : List Tensor) (output : Tensor) (relu : Bool) :
    Except Failure Spec :=
  if output.elem.movable = false then refuse (.elemType output.elem)
  else if output.layout ≠ .interleaved then breach (.outputLayout output.layout)
  else if Plan.maxInputs < inputs.length then refuse (.inputs inputs.length)
  else
    match Plan.blockSizes output.elem.bytes with
    | .error fault => breach fault
    | .ok all =>
        let sizes := all.filter fun block => Plan.blockBits output.elem.bytes block ≤ maxBits
        if sizes = [] then refuse (.unsupported (.widthCap maxBits output.elem))
        else Plan.withSizes sizes inputs output relu

end ChannelConcat
