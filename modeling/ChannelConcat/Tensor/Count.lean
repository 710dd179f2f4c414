import ChannelConcat.Size

/-!
# Element counts

The number of positions and of elements of a tensor. `pixels` and `elements` multiply from the left
and fault at the first product that is no size; `elements?` gives the exact count whenever that
count is a size, also if a zero dimension follows a large product.
-/

namespace ChannelConcat.Tensor

/-- The number of positions: the product of all dimensions but the channels, from the left. -/
def pixels (tensor : Tensor) : Except Fault Nat := do
  let rows ← Size.mul tensor.dims.batch tensor.dims.height
  Size.mul rows tensor.dims.width

/-- The number of elements: the positions times the channels. -/
def elements (tensor : Tensor) : Except Fault Nat := do
  let positions ← tensor.pixels
  Size.mul positions tensor.channels

/-- The number of elements if it is a size: zero at once if some dimension is zero, and the product
from the left otherwise. -/
def elements? (tensor : Tensor) : Option Nat :=
  if 0 ∈ tensor.dims.toList then some 0
  else (tensor.dims.toList.foldlM Size.mul 1).toOption

end ChannelConcat.Tensor
