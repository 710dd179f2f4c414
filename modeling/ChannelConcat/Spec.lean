import ChannelConcat.Size

/-!
# Routine specifications

A specification fixes everything that a copy routine is generated from, together with the shape of
the output it was planned for. Two specifications are the same request for code exactly when all
their fields agree, so a specification is also the key under which a routine is kept.
-/

namespace ChannelConcat

/-- The parameters of one copy routine. -/
structure Spec where
  /-- The number of inputs. -/
  inputs : Nat
  /-- Negative elements become zero while they are copied. -/
  relu : Bool
  elem : ElemType
  /-- The size of one element in bytes. -/
  elemBytes : Nat
  /-- The number of channels that one vector holds. -/
  block : Nat
  /-- The width of a vector in bits. -/
  bits : Nat
  /-- The dimensions of the output. -/
  dims : Dims
  deriving DecidableEq

namespace Spec

/-- The number of bytes by which both cursors advance after each block. -/
def blockBytes (spec : Spec) : Except Fault Nat :=
  Size.mul spec.block spec.elemBytes

/-- The number of whole blocks in this many channels. -/
def blocksIn (spec : Spec) (channels : Nat) : Except Fault Nat :=
  Size.div channels spec.block

/-- The structured text of a specification. -/
def text (spec : Spec) : String :=
  Text.record "KernelConfig"
    [("n_inputs", toString spec.inputs), ("with_relu", toString spec.relu),
      ("dtype", spec.elem.name), ("type_size", toString spec.elemBytes),
      ("block", toString spec.block), ("bits_size", toString spec.bits),
      ("batch", toString spec.dims.batch), ("height", toString spec.dims.height),
      ("width", toString spec.dims.width), ("channels", toString spec.dims.channels)]

end Spec

end ChannelConcat
