import ChannelConcat.Word
import ChannelConcat.X86.State

/-!
# Call descriptors

A routine is called with the address of a descriptor, which holds the addresses of a table of
sources, of a table of block counts and of the target. Main definition: `Descriptor`.
-/

namespace ChannelConcat

open X86

/-- What a routine is called with. -/
structure Descriptor where
  /-- The address of the table of source addresses, eight bytes each. -/
  sources : Address
  /-- The address of the table of block counts, four bytes each. -/
  counts : Address
  /-- The address of the target. -/
  target : Address
  deriving DecidableEq

namespace Descriptor

/-- The offset of the table of sources in a descriptor. -/
def sourcesOffset : Nat :=
  0

/-- The offset of the table of block counts in a descriptor. -/
def countsOffset : Nat :=
  8

/-- The offset of the target in a descriptor. -/
def targetOffset : Nat :=
  16

/-- A descriptor in memory: its three addresses in order. -/
def bytes (descriptor : Descriptor) : List Byte :=
  Word.toBytes 8 descriptor.sources ++ Word.toBytes 8 descriptor.counts ++
    Word.toBytes 8 descriptor.target

end Descriptor

end ChannelConcat
