import ChannelConcat.Tensor

/-!
# Faults

A fault is a breach of what a caller promised: arithmetic that leaves the range of sizes, or an
argument outside the set on which an operation is defined. A fault ends the operation at once, in
contrast to a refusal, which is a regular answer.
-/

namespace ChannelConcat

/-- What made an operation stop. -/
inductive Fault where
  /-- A product leaves the range of sizes. -/
  | product
  /-- A sum leaves the range of sizes. -/
  | sum
  /-- A division by zero. -/
  | division
  /-- A plan was asked for an output that is not channel-interleaved. -/
  | outputLayout (got : Layout)
  /-- The number of sources differs from the number of channel counts. -/
  | sourceCount (sources channels : Nat)
  /-- A vector width that no register has. -/
  | vectorWidth (bits : Nat)
  /-- A clamp of an element type that has none. -/
  | clamp (elem : ElemType)
  /-- Block sizes were asked for elements of a size that has none. -/
  | blockSizes (bytes : Nat)
  /-- A part of a buffer that ends past its length. -/
  | slice (stop length : Nat)
  deriving DecidableEq

/-- The text of two values that should have been equal. -/
def unequalText (left right : String) : String :=
  s!"\n  left: {left}\n right: {right}"

/-- The text of a fault. -/
def Fault.message : Fault → String
  | product => "attempt to multiply with overflow"
  | sum => "attempt to add with overflow"
  | division => "attempt to divide by zero"
  | outputLayout got =>
      "assertion `left == right` failed: concat output must be channel-interleaved" ++
        unequalText got.name Layout.interleaved.name
  | sourceCount sources channels =>
      "assertion `left == right` failed" ++ unequalText (toString sources) (toString channels)
  | vectorWidth bits => s!"internal error: entered unreachable code: error bits size {bits}"
  | clamp elem => s!"internal error: entered unreachable code: no concat clamp for {elem.name}"
  | blockSizes bytes => s!"no concat blocks for {bytes}-byte elements"
  | slice stop length => s!"range end index {stop} out of range for slice of length {length}"

end ChannelConcat
