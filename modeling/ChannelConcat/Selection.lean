import ChannelConcat.Isa
import ChannelConcat.Fault
import ChannelConcat.Single
import ChannelConcat.Word

/-!
# Instruction selection

The vector register and the clamp instruction that a routine uses, picked from the vector width, the
element type and the wish to clamp, and the effect of each clamp on the bytes of two vectors. Main
definitions: `select`, `Clamp.apply`.
-/

namespace ChannelConcat

/-- The part of a vector register that an instruction uses. -/
inductive VectorWidth where
  | xmm
  | ymm
  | zmm
  deriving DecidableEq

namespace VectorWidth

/-- The number of bytes of the part. -/
def bytes : VectorWidth → Nat
  | xmm => 16
  | ymm => 32
  | zmm => 64

/-- The number of bits of the part. -/
def bits (width : VectorWidth) : Nat :=
  8 * width.bytes

/-- The part with the given number of bits. -/
def ofBits (bits : Nat) : Except Fault VectorWidth :=
  if bits = 128 then .ok xmm
  else if bits = 256 then .ok ymm
  else if bits = 512 then .ok zmm
  else .error (.vectorWidth bits)

/-- The lowest level that has instructions on this part. -/
def isa : VectorWidth → Isa
  | xmm | ymm => .avx2
  | zmm => .avx512

end VectorWidth

/-- The maximum with zero, lane by lane. -/
inductive Clamp where
  /-- The maximum of signed bytes. -/
  | maxI8
  /-- The maximum of signed words of four bytes. -/
  | maxI32
  /-- The maximum of single-precision numbers. -/
  | maxF32
  deriving DecidableEq

namespace Clamp

/-- The clamp for an element type. Bytes are compared as signed also where the type is unsigned. -/
def ofElem : ElemType → Except Fault Clamp
  | .s8 | .u8 => .ok maxI8
  | .s32 => .ok maxI32
  | .f32 => .ok maxF32
  | .f16 => .error (.clamp .f16)
  | .bf16 => .error (.clamp .bf16)

/-- The number of bytes of one lane. -/
def laneBytes : Clamp → Nat
  | maxI8 => 1
  | maxI32 | maxF32 => 4

/-- The instruction on one lane of its two sources. The integer maxima are symmetric; the maximum of
single-precision numbers is the second source unless the first is greater, so a NaN in either and
two zeros give the second. -/
def lane : (clamp : Clamp) →
    BitVec (8 * clamp.laneBytes) → BitVec (8 * clamp.laneBytes) → BitVec (8 * clamp.laneBytes)
  | maxI8, first, second | maxI32, first, second => if first.slt second then second else first
  | maxF32, first, second => if Single.lt second first then first else second

end Clamp

/-- Apply a function of two words lane by lane to two vectors of bytes. Bytes past the last whole
lane of the first vector are dropped. -/
def lanewise (n : Nat) (f : BitVec (8 * n) → BitVec (8 * n) → BitVec (8 * n))
    (first second : List Byte) : List Byte :=
  (List.range (first.length / n)).flatMap fun k =>
    Word.toBytes n (f (Word.ofBytes n ((first.drop (n * k)).take n))
      (Word.ofBytes n ((second.drop (n * k)).take n)))

/-- The clamp of a vector against a vector of zeros. The integer maxima take the vector as their
first source and the maximum of single-precision numbers takes it as its second, so that it passes
NaNs and negative zeros on. -/
def Clamp.apply (clamp : Clamp) (zeros vector : List Byte) : List Byte :=
  match clamp with
  | maxI8 | maxI32 => lanewise clamp.laneBytes clamp.lane vector zeros
  | maxF32 => lanewise clamp.laneBytes clamp.lane zeros vector

/-- The instructions that a routine uses to load, clamp and store one block. -/
structure Selection where
  width : VectorWidth
  /-- The clamp between load and store, if there is one. -/
  clamp : Option Clamp
  deriving DecidableEq

/-- Select the instructions for a vector width in bits and an element type. -/
def select (bits : Nat) (elem : ElemType) (relu : Bool) : Except Fault Selection := do
  let width ← VectorWidth.ofBits bits
  if relu then
    let clamp ← Clamp.ofElem elem
    return ⟨width, some clamp⟩
  else
    return ⟨width, none⟩

/-- What one block becomes between load and store. -/
def Selection.onBlock (selection : Selection) (block : List Byte) : List Byte :=
  match selection.clamp with
  | some clamp => clamp.apply (List.replicate block.length 0) block
  | none => block

end ChannelConcat
