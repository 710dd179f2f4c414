import ChannelConcat.Element
import ChannelConcat.Single
import ChannelConcat.Word

/-!
# Elements

The four types of elements that buffers can hold, as words of their size, and the clamp that turns
negative elements into zero.
-/

namespace ChannelConcat

/-- An element type that buffers can hold. -/
inductive Scalar where
  | s8
  | u8
  | s32
  | f32
  deriving DecidableEq

namespace Scalar

/-- The element type a buffer of such elements has. -/
def elem : Scalar → ElemType
  | s8 => .s8
  | u8 => .u8
  | s32 => .s32
  | f32 => .f32

/-- The size of one element in bytes. -/
def bytes (scalar : Scalar) : Nat :=
  scalar.elem.bytes

/-- An element: a word of its size. -/
abbrev Value (scalar : Scalar) : Type :=
  BitVec (8 * scalar.bytes)

/-- The element counts as negative for the clamp. Bytes are read as signed also where the element
type is unsigned, and a single-precision number is negative if it is less than zero, so that a NaN
and the negative zero are not. -/
def negative : (scalar : Scalar) → scalar.Value → Bool
  | s8, value | u8, value | s32, value => value.msb
  | f32, value => Single.lt value 0#32

/-- Zero for a negative element, and any other element itself. -/
def clamp (scalar : Scalar) (value : scalar.Value) : scalar.Value :=
  if scalar.negative value then 0 else value

end Scalar

end ChannelConcat
