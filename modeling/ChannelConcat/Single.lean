/-!
# Order of single-precision numbers

The order of single-precision floating-point numbers, computed on their 32 bits. A NaN is in order
with no number, itself included, and the two zeros are equal.
-/

namespace ChannelConcat.Single

/-- The bits without the sign: a number that grows with the distance from zero. -/
def magnitude (bits : BitVec 32) : Nat :=
  bits.toNat % 0x80000000

/-- The bits are those of a NaN: their magnitude is past that of infinity. -/
def isNaN (bits : BitVec 32) : Bool :=
  0x7F800000 < magnitude bits

/-- An integer that orders all numbers but NaNs as their values: the magnitude with the sign. -/
def key (bits : BitVec 32) : Int :=
  if bits.msb then -(magnitude bits : Int) else magnitude bits

/-- The first number is less than the second. -/
def lt (a b : BitVec 32) : Bool :=
  !isNaN a && !isNaN b && key a < key b

end ChannelConcat.Single
