import ChannelConcat.Refusal
import ChannelConcat.Tensor.Count

/-!
# Shapes that can be concatenated

The inputs of a concatenation must agree with the output in everything but the channels, and their
channels together must be those of the output. `Shape.defect` finds the first breach of these rules
in a fixed order, so that the same shapes are always refused for the same cause.
-/

namespace ChannelConcat.Shape

/-- What is wrong with an output on its own: its layout or its element type. -/
def outputDefect (output : Tensor) : Option Refusal :=
  if output.layout ≠ .interleaved then some (.unsupported (.outputLayout output.layout))
  else if output.elem.movable = false then some (.elemType output.elem)
  else none

/-- What is wrong with an input beside the output: its layout, its element type or the dimensions
that count positions. -/
def inputDefect (output input : Tensor) (index : Nat) : Option Refusal :=
  if input.layout ≠ .interleaved then some (.layout index .interleaved input.layout)
  else if input.elem ≠ output.elem then some (.inputElem index output.elem input.elem)
  else if input.dims.spatial ≠ output.dims.spatial then
    some (.shape (.spatial index output.dims input.dims))
  else none

/-- An input with so many elements that their number is no size. -/
def inputCountDefect (input : Tensor) (index : Nat) : Option Refusal :=
  if input.elements? = none then some (.shape (.inputElements index input.dims)) else none

/-- An output with so many elements that their number is no size. -/
def outputCountDefect (output : Tensor) : Option Refusal :=
  if output.elements? = none then some (.shape (.outputElements output.dims)) else none

/-- The channels of all inputs are not those of the output. -/
def channelsDefect (inputs : List Tensor) (output : Tensor) : Option Refusal :=
  match Size.sum? (inputs.map Tensor.channels) with
  | none => some (.shape (.channelTotal inputs.length))
  | some total =>
      if total ≠ output.channels then some (.shape (.outputChannels total output.channels))
      else none

/-- The first defect of the shapes: of the output, of an input beside it, of an element count, of
the channels. -/
def defect (inputs : List Tensor) (output : Tensor) : Option Refusal :=
  (outputDefect output).or <|
  (firstDefect (inputDefect output) inputs).or <|
  (firstDefect inputCountDefect inputs).or <|
  (outputCountDefect output).or <|
  channelsDefect inputs output

end ChannelConcat.Shape
