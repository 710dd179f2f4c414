import ChannelConcat.Element
import ChannelConcat.Text.Record

/-!
# Tensor descriptions

A tensor is described by its element type, its four dimensions and its memory layout. The elements
themselves live in buffers elsewhere.
-/

namespace ChannelConcat

/-- The order of a tensor's elements in memory: with the channels of one position side by side, or
with one plane of positions per channel. -/
inductive Layout where
  | interleaved
  | planar
  deriving DecidableEq

/-- The name of a layout in messages: its dimensions from the outermost to the innermost. -/
def Layout.name : Layout → String
  | interleaved => "Nhwc"
  | planar => "Nchw"

/-- The four dimensions of a tensor. Each is a 64-bit size. -/
structure Dims where
  batch : Nat
  height : Nat
  width : Nat
  channels : Nat
  deriving DecidableEq

namespace Dims

/-- All four dimensions, the channels last. -/
def toList (dims : Dims) : List Nat :=
  [dims.batch, dims.height, dims.width, dims.channels]

/-- The dimensions that count positions: all but the channels. -/
def spatial (dims : Dims) : List Nat :=
  [dims.batch, dims.height, dims.width]

end Dims

/-- The text of a list of sizes. -/
def sizesText (sizes : List Nat) : String :=
  Text.bracketed (sizes.map toString)

/-- The description of a tensor. -/
structure Tensor where
  elem : ElemType
  dims : Dims
  layout : Layout
  deriving DecidableEq

namespace Tensor

/-- A tensor whose channels are interleaved. -/
def interleaved (elem : ElemType) (dims : Dims) : Tensor :=
  ⟨elem, dims, .interleaved⟩

/-- The number of channels of a tensor. -/
def channels (tensor : Tensor) : Nat :=
  tensor.dims.channels

/-- The structured text of a tensor description. -/
def text (tensor : Tensor) : String :=
  Text.record "TensorDesc"
    [("dtype", tensor.elem.name), ("dims", sizesText tensor.dims.toList),
      ("layout", tensor.layout.name)]

end Tensor

end ChannelConcat
