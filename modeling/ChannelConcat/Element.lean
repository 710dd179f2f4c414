/-!
# Element types

The element types a tensor may declare, and the size of one element. Only types of one or four
bytes can be concatenated.
-/

namespace ChannelConcat

/-- The type of a tensor's elements. -/
inductive ElemType where
  | s8
  | u8
  | s32
  | f32
  | f16
  | bf16
  deriving DecidableEq

namespace ElemType

/-- The size of one element in bytes. -/
def bytes : ElemType → Nat
  | s8 | u8 => 1
  | f16 | bf16 => 2
  | s32 | f32 => 4

/-- Elements of this type can be concatenated. -/
def movable (type : ElemType) : Bool :=
  type.bytes = 1 || type.bytes = 4

/-- The name of the type in messages. -/
def name : ElemType → String
  | s8 => "S8"
  | u8 => "U8"
  | s32 => "S32"
  | f32 => "F32"
  | f16 => "F16"
  | bf16 => "BF16"

end ElemType

end ChannelConcat
